import Logweir.Library.Programs

/-!
# Programs and their servers

A program run against a server that may answer a call in several ways and may change as
it does.  `Safe` is the weakest precondition over the server's states: every state on the
way keeps `always`, and what the program ends with is `post`.  Where the server answers in
one way there is one run.
-/

set_option autoImplicit false

namespace Logweir.Programs

variable {Call : Type} {Answer : Call → Type} {ε ε' α β σ : Type}

/-- What a server may do with a call in a state: the answer and the state it leaves. -/
abbrev Server (σ Call : Type) (Answer : Call → Type) := σ → (c : Call) → Answer c → σ → Prop

/-- The server that answers as a function does. -/
def Server.of (serve : σ → (c : Call) → Answer c × σ) : Server σ Call Answer :=
  fun s c answer s' => (answer, s') = serve s c

/-- A server goes through a log: every call answered as it was. -/
inductive Serving (server : Server σ Call Answer) : σ → List (Event Call Answer) → σ → Prop where
  | still (s : σ) : Serving server s [] s
  | served {s s' t : σ} {e : Event Call Answer} {log : List (Event Call Answer)}
      (answered : server s e.call e.answer s') (later : Serving server s' log t) :
      Serving server s (e :: log) t

theorem serving_append {server : Server σ Call Answer} {first rest : List (Event Call Answer)} :
    ∀ {s t : σ}, Serving server s (first ++ rest) t →
      ∃ middle, Serving server s first middle ∧ Serving server middle rest t := by
  induction first with
  | nil => exact fun {s t} serving => ⟨s, .still s, serving⟩
  | cons e first ih =>
      intro s t serving
      cases serving with
      | served answered later =>
          obtain ⟨middle, early, late⟩ := ih later
          exact ⟨middle, .served answered early, late⟩

theorem Serving.kept {β : Type} {server : Server σ Call Answer} {f : σ → β} (touches : Call → Prop)
    (frame : ∀ s c answer s', server s c answer s' → ¬ touches c → f s' = f s)
    {s t : σ} {log : List (Event Call Answer)} (serving : Serving server s log t)
    (apart : ∀ e ∈ log, ¬ touches e.call) : f t = f s := by
  induction serving with
  | still s => rfl
  | served answered later ih =>
      rw [ih fun e member => apart e (List.mem_cons_of_mem _ member)]
      exact frame _ _ _ _ answered (apart _ List.mem_cons_self)

namespace Program

/-- What a program stops with, as a result. -/
def attempt : Program Call Answer ε α → Program Call Answer ε' (Except ε α)
  | done a => done (.ok a)
  | stop e => done (.error e)
  | ask c next => ask c fun answer => (next answer).attempt

/-- Where a program may be, from a state, and in which state the server then is. -/
inductive Reaches (server : Server σ Call Answer) :
    Program Call Answer ε α → σ → Program Call Answer ε α → σ → Prop where
  | here (p : Program Call Answer ε α) (s : σ) : Reaches server p s p s
  | asked {c : Call} {next : Answer c → Program Call Answer ε α} {s s' t : σ} {answer : Answer c}
      {q : Program Call Answer ε α} (answered : server s c answer s')
      (later : Reaches server (next answer) s' q t) : Reaches server (ask c next) s q t

def Safe (server : Server σ Call Answer) (always : σ → Prop) (post : σ → Except ε α → Prop) :
    Program Call Answer ε α → σ → Prop
  | done a, s => always s ∧ post s (.ok a)
  | stop e, s => always s ∧ post s (.error e)
  | ask c next, s => always s ∧ ∀ answer s', server s c answer s' → (next answer).Safe server always post s'

/-- The one run against a server that answers as a function does. -/
def run (serve : σ → (c : Call) → Answer c × σ) : Program Call Answer ε α → σ → Except ε α × σ
  | done a, s => (.ok a, s)
  | stop e, s => (.error e, s)
  | ask c next, s => (next (serve s c).1).run serve (serve s c).2

variable {server : Server σ Call Answer} {always : σ → Prop} {post : σ → Except ε α → Prop}

theorem Safe.kept {p : Program Call Answer ε α} {s : σ} (safe : p.Safe server always post s) :
    always s := by
  cases p <;> exact safe.1

theorem Safe.reaches {p q : Program Call Answer ε α} {s t : σ} (safe : p.Safe server always post s)
    (reached : Reaches server p s q t) : q.Safe server always post t := by
  induction reached with
  | here p s => exact safe
  | asked answered _ ih => exact ih (safe.2 _ _ answered)

theorem safe_pure {a : α} {s : σ} (kept : always s) (holds : post s (.ok a)) :
    (pure a : Program Call Answer ε α).Safe server always post s := ⟨kept, holds⟩

theorem safe_stop {e : ε} {s : σ} (kept : always s) (holds : post s (.error e)) :
    (stop e : Program Call Answer ε α).Safe server always post s := ⟨kept, holds⟩

/-- Where a program may be, it makes a call that every call of it may be. -/
theorem Reaches.asks {asks : Call → Prop} {ends : List (Event Call Answer) → α → Prop}
    {p : Program Call Answer ε α} {s t : σ} {c : Call} {next : Answer c → Program Call Answer ε α}
    {log : List (Event Call Answer)} (held : p.Meets (fun _ => asks) ends log)
    (reached : Reaches server p s (ask c next) t) : asks c := by
  generalize left : ask c next = q at reached
  induction reached generalizing log with
  | here p s =>
      subst left
      exact held.1
  | asked answered _ ih => exact ih (held.2 _) left

theorem meets_attempt {asks : List (Event Call Answer) → Call → Prop} {p : Program Call Answer ε α}
    {log : List (Event Call Answer)} (held : p.Meets asks (fun _ _ => True) log) :
    (p.attempt : Program Call Answer ε' (Except ε α)).Meets asks (fun _ _ => True) log := by
  induction p generalizing log with
  | done a => trivial
  | stop e => trivial
  | ask c next ih => exact ⟨held.1, fun answer => ih answer (held.2 answer)⟩

theorem safe_weaken {always' : σ → Prop} {middle : σ → Except ε α → Prop}
    {p : Program Call Answer ε α} {s : σ} (safe : p.Safe server always middle s)
    (kept : ∀ s, always s → always' s) (weaker : ∀ s r, always s → middle s r → post s r) :
    p.Safe server always' post s := by
  induction p generalizing s with
  | done a => exact ⟨kept s safe.1, weaker s _ safe.1 safe.2⟩
  | stop e => exact ⟨kept s safe.1, weaker s _ safe.1 safe.2⟩
  | ask c next ih =>
      exact ⟨kept s safe.1, fun answer s' answered => ih answer (safe.2 answer s' answered)⟩

theorem safe_mono {middle : σ → Except ε α → Prop} {p : Program Call Answer ε α} {s : σ}
    (safe : p.Safe server always middle s)
    (weaker : ∀ s r, always s → middle s r → post s r) : p.Safe server always post s :=
  safe_weaken safe (fun _ kept => kept) weaker

theorem safe_bind {middle : σ → Except ε α → Prop} {post : σ → Except ε β → Prop}
    {p : Program Call Answer ε α} {f : α → Program Call Answer ε β} {s : σ}
    (first : p.Safe server always middle s)
    (stopped : ∀ s e, always s → middle s (.error e) → post s (.error e))
    (rest : ∀ s a, always s → middle s (.ok a) → (f a).Safe server always post s) :
    (p >>= f).Safe server always post s := by
  change (p.bind f).Safe server always post s
  induction p generalizing s with
  | done a => exact rest s a first.1 first.2
  | stop e => exact ⟨first.1, stopped s e first.1 first.2⟩
  | ask c next ih => exact ⟨first.1, fun answer s' answered => ih answer (first.2 answer s' answered)⟩

theorem safe_attempt {middle : σ → Except ε α → Prop} {post : σ → Except ε' β → Prop}
    {p : Program Call Answer ε α} {f : Except ε α → Program Call Answer ε' β} {s : σ}
    (first : p.Safe server always middle s)
    (rest : ∀ s r, always s → middle s r → (f r).Safe server always post s) :
    ((p.attempt : Program Call Answer ε' (Except ε α)) >>= f).Safe server always post s := by
  change ((p.attempt).bind f).Safe server always post s
  induction p generalizing s with
  | done a => exact rest s _ first.1 first.2
  | stop e => exact rest s _ first.1 first.2
  | ask c next ih => exact ⟨first.1, fun answer s' answered => ih answer (first.2 answer s' answered)⟩

section

variable {serve : σ → (c : Call) → Answer c × σ}

theorem run_bind {p : Program Call Answer ε α} {f : α → Program Call Answer ε β} {s s' : σ} {a : α}
    (first : p.run serve s = (.ok a, s')) : (p >>= f).run serve s = (f a).run serve s' := by
  change (p.bind f).run serve s = _
  induction p generalizing s with
  | done b =>
      cases first
      rfl
  | stop e => cases first
  | ask c next ih => exact ih _ first

theorem run_attempt {p : Program Call Answer ε α} {s s' : σ} {r : Except ε α}
    (first : p.run serve s = (r, s')) :
    (p.attempt : Program Call Answer ε' (Except ε α)).run serve s = (.ok r, s') := by
  induction p generalizing s with
  | done b =>
      cases first
      rfl
  | stop e =>
      cases first
      rfl
  | ask c next ih => exact ih _ first

/-- The program and the server's state, a number of answers later. -/
def after (serve : σ → (c : Call) → Answer c × σ) :
    Nat → Program Call Answer ε α → σ → Program Call Answer ε α × σ
  | n + 1, ask c next, s => (next (serve s c).1).after serve n (serve s c).2
  | _, p, s => (p, s)

/-- The server that answers as a function does reaches what the function leads to. -/
theorem reaches_after (given : ∀ s c, server s c (serve s c).1 (serve s c).2) :
    ∀ (n : Nat) (p : Program Call Answer ε α) (s : σ),
      Reaches server p s (p.after serve n s).1 (p.after serve n s).2 := by
  intro n
  induction n with
  | zero =>
      intro p s
      cases p <;> exact .here _ _
  | succ n ih =>
      intro p s
      cases p with
      | done a => exact .here _ s
      | stop e => exact .here _ s
      | ask c next => exact .asked (given s c) (ih _ _)

theorem reaches_run (given : ∀ s c, server s c (serve s c).1 (serve s c).2)
    {p : Program Call Answer ε α} {s s' : σ} {a : α} (ran : p.run serve s = (.ok a, s')) :
    Reaches server p s (done a) s' := by
  induction p generalizing s with
  | done b =>
      cases ran
      exact .here _ _
  | stop e => cases ran
  | ask c next ih => exact .asked (given s c) (ih _ ran)

theorem Safe.run {p : Program Call Answer ε α} {s s' : σ} {r : Except ε α}
    (safe : p.Safe server always post s) (given : ∀ s c, server s c (serve s c).1 (serve s c).2)
    (ran : p.run serve s = (r, s')) : always s' ∧ post s' r := by
  induction p generalizing s with
  | done b =>
      cases ran
      exact safe
  | stop e =>
      cases ran
      exact safe
  | ask c next ih => exact ih _ (safe.2 _ _ (given s c)) ran

end

end Program

end Logweir.Programs
