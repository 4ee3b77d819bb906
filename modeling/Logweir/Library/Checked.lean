import Mathlib

/-!
# Runs that may panic

A run of code that allocates, indexes and subtracts: what it asked the allocator for, and
how it ended.  A run follows a plain function that may fail when it ends as the function
does, never in a panic, with every allocation within a bound; runs that follow compose.
-/

set_option autoImplicit false

namespace Logweir.Checked

variable {ε α β γ δ : Type}

/-- How a run ended; a panic is an index or a subtraction out of its bounds. -/
inductive Outcome (ε α : Type) where
  | ok (a : α)
  | error (e : ε)
  | panic
deriving DecidableEq, Repr

structure Run (ε α : Type) where
  /-- The sizes asked for, in order. -/
  allocated : List Nat
  outcome : Outcome ε α

namespace Run

def done (a : α) : Run ε α := ⟨[], .ok a⟩

def andThen (r : Run ε α) (next : α → Run ε β) : Run ε β :=
  match r.outcome with
  | .ok a => ⟨r.allocated ++ (next a).allocated, (next a).outcome⟩
  | .error e => ⟨r.allocated, .error e⟩
  | .panic => ⟨r.allocated, .panic⟩

instance : Monad (Run ε) where
  pure := done
  bind := andThen

def fail (e : ε) : Run ε α := ⟨[], .error e⟩

/-- `Vec::with_capacity(n)`, `vec![0; n]`. -/
def alloc (n : Nat) : Run ε Unit := ⟨[n], .ok ()⟩

/-- `a - b` of unsigned numbers. -/
def sub (a b : Nat) : Run ε Nat := if b ≤ a then done (a - b) else ⟨[], .panic⟩

/-- `a + b` of that many bits. -/
def add (bits a b : Nat) : Run ε Nat := if a + b < 2 ^ bits then done (a + b) else ⟨[], .panic⟩

/-- `1 << n` of that many bits. -/
def one (bits n : Nat) : Run ε Nat := if n < bits then done (1 <<< n) else ⟨[], .panic⟩

/-- `l[i]`. -/
def index (l : List γ) (i : Nat) : Run ε γ :=
  match l[i]? with
  | some x => done x
  | none => ⟨[], .panic⟩

/-- `&l[start..stop]`. -/
def range (l : List γ) (start stop : Nat) : Run ε (List γ) :=
  if start ≤ stop ∧ stop ≤ l.length then done ((l.take stop).drop start) else ⟨[], .panic⟩

/-- `Result::map_err`. -/
def mapError {ε' : Type} (f : ε → ε') (r : Run ε α) : Run ε' α :=
  ⟨r.allocated, match r.outcome with
    | .ok a => .ok a
    | .error e => .error (f e)
    | .panic => .panic⟩

/-- A result of an earlier stage, which is a value or the failure. -/
def lift : Except ε α → Run ε α
  | .ok a => done a
  | .error e => fail e

theorem sub_eq {a b : Nat} (fits : b ≤ a) : (sub a b : Run ε Nat) = done (a - b) := if_pos fits

theorem add_eq {bits a b : Nat} (fits : a + b < 2 ^ bits) :
    (add bits a b : Run ε Nat) = done (a + b) := if_pos fits

theorem one_eq {bits n : Nat} (fits : n < bits) : (one bits n : Run ε Nat) = done (1 <<< n) :=
  if_pos fits

theorem range_eq {l : List γ} {start stop : Nat} (ordered : start ≤ stop) (inside : stop ≤ l.length) :
    (range l start stop : Run ε (List γ)) = done ((l.take stop).drop start) :=
  if_pos ⟨ordered, inside⟩

theorem index_eq {l : List γ} {i : Nat} {x : γ} (there : l[i]? = some x) :
    (index l i : Run ε γ) = done x := by
  simp [index, there]

@[simp] theorem done_bind (a : α) (next : α → Run ε β) : (done a >>= next) = next a := by
  show andThen (done a) next = next a
  simp [andThen, done]

@[simp] theorem pure_bind (a : α) (next : α → Run ε β) : ((pure a : Run ε α) >>= next) = next a :=
  done_bind a next

@[simp] theorem lift_ok (a : α) : (lift (.ok a) : Run ε α) = done a := rfl

theorem lift_bind (x : Except ε α) (f : α → Except ε β) :
    lift (x >>= f) = lift x >>= fun a => lift (f a) := by
  cases x with
  | error e => rfl
  | ok a => exact (done_bind a fun b => lift (f b)).symm

theorem bind_lift {x : Except ε α} {f : α → Except ε β} {g : α → Run ε β}
    (same : ∀ a, x = .ok a → g a = lift (f a)) : lift x >>= g = lift (x >>= f) := by
  cases x with
  | error e => rfl
  | ok a => exact (done_bind a g).trans (same a rfl)

theorem outcome_lift_ne_panic (x : Except ε α) : (lift x).outcome ≠ .panic := by
  cases x <;> intro same <;> cases same

theorem allocated_alloc_bind (n : Nat) (next : Unit → Run ε β) :
    (alloc n >>= next).allocated = n :: (next ()).allocated := rfl

theorem outcome_alloc_bind (n : Nat) (next : Unit → Run ε β) :
    (alloc n >>= next).outcome = (next ()).outcome := rfl

theorem mem_allocated_bind {r : Run ε α} {next : α → Run ε β} {n : Nat} :
    n ∈ (r >>= next).allocated ↔
      n ∈ r.allocated ∨ ∃ a, r.outcome = .ok a ∧ n ∈ (next a).allocated := by
  show n ∈ (andThen r next).allocated ↔ _
  unfold andThen
  split
  · rename_i a ended
    simp [ended]
  · rename_i e ended
    simp [ended]
  · rename_i ended
    simp [ended]

theorem outcome_bind_panic {r : Run ε α} (next : α → Run ε β) (ended : r.outcome = .panic) :
    (r >>= next).outcome = .panic := by
  show (andThen r next).outcome = _
  simp [andThen, ended]

end Run

/-- A run's end and a function's result agree. -/
def Agrees (R : α → β → Prop) : Outcome ε α → Except ε β → Prop
  | .ok a, .ok b => R a b
  | .error e, .error e' => e = e'
  | _, _ => False

/-- The run ends as the function does, and asks for no more than the bound at a time. -/
structure Follows (bound : Nat) (R : α → β → Prop) (r : Run ε α) (f : Except ε β) : Prop where
  within : ∀ n ∈ r.allocated, n ≤ bound
  ends : Agrees R r.outcome f

namespace Follows

variable {bound : Nat} {R : α → β → Prop} {S : γ → δ → Prop}

theorem done {a : α} {b : β} (related : R a b) :
    Follows bound R (Run.done a : Run ε α) (.ok b) :=
  ⟨by simp [Run.done], related⟩

theorem fail (e : ε) : Follows bound R (Run.fail e) (.error e) :=
  ⟨by simp [Run.fail], rfl⟩

/-- Runs that follow compose; what comes later may use what the function gave. -/
theorem bind_known {r : Run ε α} {f : Except ε β} {next : α → Run ε γ} {next' : β → Except ε δ}
    (first : Follows bound R r f)
    (later : ∀ a b, f = .ok b → R a b → Follows bound S (next a) (next' b)) :
    Follows bound S (r >>= next) (f >>= next') := by
  obtain ⟨within, ends⟩ := first
  show Follows bound S (Run.andThen r next) _
  unfold Run.andThen
  cases ended : r.outcome with
  | ok a =>
      cases f with
      | ok b =>
          rw [ended] at ends
          obtain ⟨within', ends'⟩ := later a b rfl ends
          refine ⟨fun n member => ?_, ends'⟩
          exact (List.mem_append.mp member).elim (within n) (within' n)
      | error e =>
          rw [ended] at ends
          exact ends.elim
  | error e =>
      cases f with
      | ok b =>
          rw [ended] at ends
          exact ends.elim
      | error e' =>
          rw [ended] at ends
          exact ⟨within, ends⟩
  | panic =>
      rw [ended] at ends
      cases f <;> exact ends.elim

theorem bind {r : Run ε α} {f : Except ε β} {next : α → Run ε γ} {next' : β → Except ε δ}
    (first : Follows bound R r f) (later : ∀ a b, R a b → Follows bound S (next a) (next' b)) :
    Follows bound S (r >>= next) (f >>= next') :=
  first.bind_known fun a b _ => later a b

theorem alloc {n : Nat} {next : Unit → Run ε γ} {f : Except ε δ} (small : n ≤ bound)
    (later : Follows bound S (next ()) f) : Follows bound S (Run.alloc n >>= next) f := by
  refine ⟨fun m member => ?_, later.ends⟩
  rcases List.mem_cons.mp member with rfl | rest
  · exact small
  · exact later.within m rest

theorem ite {c c' : Prop} [Decidable c] [Decidable c'] {r s : Run ε α} {f g : Except ε β}
    (same : c ↔ c') (yes : c → Follows bound R r f) (no : ¬ c → Follows bound R s g) :
    Follows bound R (if c then r else s) (if c' then f else g) := by
  by_cases holds : c
  · rw [if_pos holds, if_pos (same.mp holds)]
    exact yes holds
  · rw [if_neg holds, if_neg fun holds' => holds (same.mpr holds')]
    exact no holds

theorem mono {bound' : Nat} {r : Run ε α} {f : Except ε β} (follows : Follows bound R r f)
    (le : bound ≤ bound') : Follows bound' R r f :=
  ⟨fun n member => Nat.le_trans (follows.within n member) le, follows.ends⟩

end Follows

namespace Agrees

variable {R : α → β → Prop} {o : Outcome ε α} {f : Except ε β}

theorem not_panic (agrees : Agrees R o f) : o ≠ .panic := by
  rintro rfl
  cases f <;> exact agrees

theorem exists_of_ok {b : β} (agrees : Agrees R o (.ok b)) : ∃ a, o = .ok a ∧ R a b := by
  cases o with
  | ok a => exact ⟨a, rfl, agrees⟩
  | error e => exact agrees.elim
  | panic => exact agrees.elim

theorem ok_iff {a : α} {f : Except ε α} (agrees : Agrees Eq o f) : o = .ok a ↔ f = .ok a := by
  cases o <;> cases f <;> simp_all [Agrees]

end Agrees

end Logweir.Checked
