/-!
# Programs of calls

A program asks its surroundings one call at a time and goes on with the answer it
gets.  What a program has been told so far is its log; `Meets` is the weakest
precondition of a program over its log: every call it makes is one the log
justifies, and what it ends with is what the log supports.  A flight is a program
under way: interleaved with anything else, the call it makes next is justified by
its own log.
-/

set_option autoImplicit false

namespace Logweir.Programs

/-- A program over calls `Call`, each with answers of its own type. -/
inductive Program (Call : Type) (Answer : Call → Type) (ε α : Type) where
  | done (a : α)
  | stop (e : ε)
  | ask (call : Call) (next : Answer call → Program Call Answer ε α)

structure Event (Call : Type) (Answer : Call → Type) where
  call : Call
  answer : Answer call

variable {Call : Type} {Answer : Call → Type} {ε α β : Type}

namespace Program

def bind : Program Call Answer ε α → (α → Program Call Answer ε β) → Program Call Answer ε β
  | done a, f => f a
  | stop e, _ => stop e
  | ask call next, f => ask call fun answer => (next answer).bind f

instance : Monad (Program Call Answer ε) where
  pure := done
  bind := bind

theorem bind_done : ∀ p : Program Call Answer ε α, p.bind done = p
  | done _ => rfl
  | stop _ => rfl
  | ask c next => congrArg (ask c) (funext fun answer => bind_done (next answer))

theorem bind_bind {γ : Type} (f : α → Program Call Answer ε β) (g : β → Program Call Answer ε γ) :
    ∀ p : Program Call Answer ε α, (p.bind f).bind g = p.bind fun a => (f a).bind g
  | done _ => rfl
  | stop _ => rfl
  | ask c next => congrArg (ask c) (funext fun answer => bind_bind f g (next answer))

instance : LawfulMonad (Program Call Answer ε) :=
  LawfulMonad.mk' _ bind_done (fun _ _ => rfl) fun p f g => bind_bind f g p

def call (c : Call) : Program Call Answer ε (Answer c) := ask c done

/-- The program run alone, every call answered. -/
def exec {σ : Type} (serve : σ → (c : Call) → Answer c × σ) :
    Program Call Answer ε α → σ → Option (α × σ)
  | done a, s => some (a, s)
  | stop _, _ => none
  | ask c next, s => (next (serve s c).1).exec serve (serve s c).2

theorem exec_bind {σ : Type} (serve : σ → (c : Call) → Answer c × σ)
    (p : Program Call Answer ε α) (f : α → Program Call Answer ε β) : ∀ s,
      (p >>= f).exec serve s = (p.exec serve s).bind fun r => (f r.1).exec serve r.2 := by
  induction p with
  | done a => exact fun _ => rfl
  | stop e => exact fun _ => rfl
  | ask c next ih => exact fun s => ih (serve s c).1 (serve s c).2

theorem exec_seq {σ : Type} {serve : σ → (c : Call) → Answer c × σ} {p : Program Call Answer ε α}
    {f : α → Program Call Answer ε β} {s s' : σ} {a : α} (first : p.exec serve s = some (a, s')) :
    (p >>= f).exec serve s = (f a).exec serve s' := by
  rw [exec_bind, first, Option.bind_some]

/-- Every call `p` makes is justified by its log, and so is what it ends with. -/
def Meets (asks : List (Event Call Answer) → Call → Prop)
    (ends : List (Event Call Answer) → α → Prop) :
    Program Call Answer ε α → List (Event Call Answer) → Prop
  | done a, log => ends log a
  | stop _, _ => True
  | ask c next, log => asks log c ∧ ∀ answer, (next answer).Meets asks ends (log ++ [⟨c, answer⟩])

variable {asks : List (Event Call Answer) → Call → Prop}
  {ends middle : List (Event Call Answer) → α → Prop} {log : List (Event Call Answer)}

theorem meets_pure {a : α} (holds : ends log a) :
    (pure a : Program Call Answer ε α).Meets asks ends log := holds

theorem meets_stop {e : ε} :
    (stop e : Program Call Answer ε α).Meets asks ends log := trivial

theorem meets_call {c : Call} {ends : List (Event Call Answer) → Answer c → Prop}
    (asked : asks log c) (answered : ∀ answer, ends (log ++ [⟨c, answer⟩]) answer) :
    (call c : Program Call Answer ε (Answer c)).Meets asks ends log := ⟨asked, answered⟩

theorem meets_ask {c : Call} {f : Answer c → Program Call Answer ε β}
    {ends : List (Event Call Answer) → β → Prop} (asked : asks log c)
    (answered : ∀ answer, (f answer).Meets asks ends (log ++ [⟨c, answer⟩])) :
    (call c >>= f).Meets asks ends log := ⟨asked, answered⟩

theorem meets_told {c : Call} (asked : asks log c) : (call c : Program Call Answer ε (Answer c)).Meets
    asks (fun log' answer => ⟨c, answer⟩ ∈ log') log :=
  meets_call asked fun _ => List.mem_append_right log (List.mem_singleton_self _)

theorem meets_bind {p : Program Call Answer ε α} {f : α → Program Call Answer ε β}
    {ends : List (Event Call Answer) → β → Prop} (first : p.Meets asks middle log)
    (rest : ∀ log' a, middle log' a → (f a).Meets asks ends log') :
    (p >>= f).Meets asks ends log := by
  change (p.bind f).Meets asks ends log
  induction p generalizing log with
  | done a => exact rest log a first
  | stop e => trivial
  | ask c next ih => exact ⟨first.1, fun answer => ih answer (first.2 answer)⟩

theorem meets_mono {p : Program Call Answer ε α} (held : p.Meets asks middle log)
    (weaker : ∀ log' a, middle log' a → ends log' a) : p.Meets asks ends log := by
  induction p generalizing log with
  | done a => exact weaker log a held
  | stop e => trivial
  | ask c next ih => exact ⟨held.1, fun answer => ih answer (held.2 answer)⟩

theorem meets_grows {p : Program Call Answer ε α} (held : p.Meets asks ends log) :
    p.Meets asks (fun log' a => ends log' a ∧ log <+: log') log := by
  induction p generalizing log with
  | done a => exact ⟨held, List.prefix_rfl⟩
  | stop e => trivial
  | ask c next ih =>
      refine ⟨held.1, fun answer => meets_mono (ih answer (held.2 answer)) ?_⟩
      intro log' a more
      exact ⟨more.1, (List.prefix_append log _).trans more.2⟩

theorem meets_seq {p : Program Call Answer ε α} {f : α → Program Call Answer ε β}
    {ends : List (Event Call Answer) → β → Prop} (first : p.Meets asks middle log)
    (rest : ∀ log' a, log <+: log' → middle log' a → (f a).Meets asks ends log') :
    (p >>= f).Meets asks ends log :=
  meets_bind (meets_grows first) fun log' a held => rest log' a held.2 held.1

/-- A loop of programs, each step keeping what holds of the elements done so far. -/
theorem meets_foldlM {σ : Type} {f : σ → β → Program Call Answer ε σ}
    {holds : List β → List (Event Call Answer) → σ → Prop} {whole : List β}
    (each : ∀ front b back log s, front ++ b :: back = whole → holds front log s →
      (f s b).Meets asks (holds (front ++ [b])) log) :
    ∀ {l done : List β}, done ++ l = whole → ∀ {log : List (Event Call Answer)} {s : σ},
      holds done log s → (l.foldlM f s).Meets asks (holds whole) log := by
  intro l
  induction l with
  | nil =>
      intro done all log s held
      rw [← all, List.append_nil]
      exact meets_pure held
  | cons b l ih =>
      intro done all log s held
      rw [List.foldlM_cons]
      exact meets_bind (each done b l log s all held) fun log' s' held' =>
        ih (by rw [List.append_assoc]; exact all) held'

/-- The calls a program may make, however they are answered, and what is then left of it. -/
inductive Traced : Program Call Answer ε α → List (Event Call Answer) →
    Program Call Answer ε α → Prop where
  | here (p : Program Call Answer ε α) : Traced p [] p
  | asked {c : Call} {next : Answer c → Program Call Answer ε α} {answer : Answer c}
      {log : List (Event Call Answer)} {q : Program Call Answer ε α}
      (later : Traced (next answer) log q) : Traced (ask c next) (⟨c, answer⟩ :: log) q

theorem Meets.traced {p q : Program Call Answer ε α} {more : List (Event Call Answer)}
    (held : p.Meets asks ends log) (traced : Traced p more q) : q.Meets asks ends (log ++ more) := by
  induction traced generalizing log with
  | here p => rwa [List.append_nil]
  | asked later ih =>
      rw [List.append_cons]
      exact ih (held.2 _)

theorem Meets.justified {p q : Program Call Answer ε α} {before after : List (Event Call Answer)}
    {e : Event Call Answer} (held : p.Meets asks ends log) (traced : Traced p (before ++ e :: after) q) :
    asks (log ++ before) e.call := by
  induction before generalizing log p with
  | nil =>
      cases traced
      rw [List.append_nil]
      exact held.1
  | cons first before ih =>
      cases traced with
      | asked later =>
          rw [List.append_cons]
          exact ih (held.2 _) later

theorem Meets.ended {p : Program Call Answer ε α} {more : List (Event Call Answer)} {a : α}
    (held : p.Meets asks ends log) (traced : Traced p more (done a)) : ends (log ++ more) a :=
  held.traced traced

/-- A sequence ran through is its first part ran through, and then the rest. -/
theorem traced_bind {p : Program Call Answer ε α} {f : α → Program Call Answer ε β} :
    ∀ {log : List (Event Call Answer)} {b : β}, Traced (p >>= f) log (done b) →
      ∃ first rest a, log = first ++ rest ∧ Traced p first (done a) ∧ Traced (f a) rest (done b) := by
  induction p with
  | done a => exact fun {log b} traced => ⟨[], log, a, rfl, .here _, traced⟩
  | stop e =>
      intro log b traced
      cases traced
  | ask c next ih =>
      intro log b traced
      cases traced with
      | asked later =>
          obtain ⟨first, rest, a, rfl, early, late⟩ := ih _ later
          exact ⟨_ :: first, rest, a, rfl, .asked early, late⟩

theorem traced_ask {c : Call} {f : Answer c → Program Call Answer ε β}
    {log : List (Event Call Answer)} {b : β} (traced : Traced (call c >>= f) log (done b)) :
    ∃ answer rest, log = ⟨c, answer⟩ :: rest ∧ Traced (f answer) rest (done b) := by
  cases traced with
  | asked later => exact ⟨_, _, rfl, later⟩

theorem traced_pure {a b : α} {log : List (Event Call Answer)}
    (traced : Traced (pure a : Program Call Answer ε α) log (done b)) : log = [] ∧ b = a := by
  cases traced
  exact ⟨rfl, rfl⟩

/-- A loop ran through: each element with the part of the log that is its own and its result. -/
theorem traced_mapM {f : α → Program Call Answer ε β} : ∀ {l : List α}
    {log : List (Event Call Answer)} {bs : List β}, Traced (l.mapM f) log (done bs) →
      ∃ runs : List (α × List (Event Call Answer) × β), runs.map Prod.fst = l ∧
        log = (runs.map fun run => run.2.1).flatten ∧ bs = runs.map (fun run => run.2.2) ∧
        ∀ run ∈ runs, Traced (f run.1) run.2.1 (done run.2.2) := by
  intro l
  induction l with
  | nil =>
      intro log bs traced
      obtain ⟨rfl, rfl⟩ := traced_pure traced
      exact ⟨[], rfl, rfl, rfl, fun run none => absurd none List.not_mem_nil⟩
  | cons a l ih =>
      intro log bs traced
      rw [List.mapM_cons] at traced
      obtain ⟨first, rest, b, rfl, here, traced⟩ := traced_bind traced
      obtain ⟨later, last, bs', rfl, loop, ended⟩ := traced_bind traced
      obtain ⟨rfl, rfl⟩ := traced_pure ended
      obtain ⟨runs, rfl, rfl, rfl, each⟩ := ih loop
      refine ⟨(a, first, b) :: runs, rfl, ?_, rfl, ?_⟩
      · rw [List.append_nil]
        rfl
      · intro run member
        rcases List.mem_cons.mp member with rfl | member
        · exact here
        · exact each run member

/-- A call that is made only where none of its kind was made before is made once at most. -/
theorem Meets.countP_le_one {p q : Program Call Answer ε α} {log : List (Event Call Answer)}
    {kind : Call → Bool} (held : p.Meets asks ends [])
    (once : ∀ log c, asks log c → kind c = true → ∀ e ∈ log, kind e.call = false)
    (traced : Traced p log q) : (log.countP fun e => kind e.call) ≤ 1 := by
  have fresh : ∀ before e after, log = before ++ e :: after → kind e.call = true →
      ∀ b ∈ before, kind b.call = false := by
    rintro before e after rfl sort
    exact once before e.call (held.justified traced) sort
  clear traced
  induction log with
  | nil => exact Nat.zero_le 1
  | cons e log ih =>
      rw [List.countP_cons]
      by_cases sort : kind e.call = true
      · have later : log.countP (fun e => kind e.call) = 0 := by
          refine List.countP_eq_zero.mpr fun b member again => ?_
          obtain ⟨before, after, rfl⟩ := List.append_of_mem member
          have other := fresh (e :: before) b after rfl again e List.mem_cons_self
          rw [sort] at other
          cases other
        have one : (if kind e.call = true then 1 else 0) = 1 := if_pos sort
        omega
      · rw [if_neg sort]
        refine ih fun before e' after same sort' b member => ?_
        exact fresh (e :: before) e' after (congrArg (e :: ·) same) sort' b (List.mem_cons_of_mem e member)

/-- The log of the one run against a server that answers as a function does. -/
def logOf {σ : Type} (serve : σ → (c : Call) → Answer c × σ) :
    Program Call Answer ε α → σ → List (Event Call Answer)
  | ask c next, s => ⟨c, (serve s c).1⟩ :: (next (serve s c).1).logOf serve (serve s c).2
  | _, _ => []

theorem traced_logOf {σ : Type} (serve : σ → (c : Call) → Answer c × σ)
    (p : Program Call Answer ε α) : ∀ s, ∃ q, Traced p (p.logOf serve s) q := by
  induction p with
  | done a => exact fun s => ⟨done a, .here _⟩
  | stop e => exact fun s => ⟨stop e, .here _⟩
  | ask c next ih =>
      intro s
      obtain ⟨q, later⟩ := ih (serve s c).1 (serve s c).2
      exact ⟨q, .asked later⟩

theorem answered_logOf {σ : Type} {serve : σ → (c : Call) → Answer c × σ} {e : Event Call Answer} :
    ∀ {p : Program Call Answer ε α} {s : σ}, e ∈ p.logOf serve s →
      ∃ s', e.answer = (serve s' e.call).1 := by
  intro p
  induction p with
  | done a => exact fun none_ => absurd none_ List.not_mem_nil
  | stop e => exact fun none_ => absurd none_ List.not_mem_nil
  | ask c next ih =>
      intro s member
      rcases List.mem_cons.mp member with rfl | later
      · exact ⟨s, rfl⟩
      · exact ih _ later

end Program

/-- A program under way: what it was started with, what it has been told, and what
is left of it. -/
structure Flight (Start Call : Type) (Answer : Call → Type) (ε α : Type) where
  start : Start
  log : List (Event Call Answer)
  rest : Program Call Answer ε α

namespace Flight

variable {Start : Type} {asks : Start → List (Event Call Answer) → Call → Prop}
  {f : Flight Start Call Answer ε α}

def next? (f : Flight Start Call Answer ε α) : Option Call :=
  match f.rest with
  | .ask c _ => some c
  | _ => none

def result? (f : Flight Start Call Answer ε α) : Option α :=
  match f.rest with
  | .done a => some a
  | _ => none

/-- The flight after its call is answered. -/
def advance (f : Flight Start Call Answer ε α) (serve : (c : Call) → Answer c) :
    Flight Start Call Answer ε α :=
  match f.rest with
  | .ask c next => { f with log := f.log ++ [⟨c, serve c⟩], rest := next (serve c) }
  | _ => f

/-- The flight's calls to come are justified, and so is what it will end with. -/
def Follows (asks : Start → List (Event Call Answer) → Call → Prop)
    (ends : Start → List (Event Call Answer) → α → Prop) (f : Flight Start Call Answer ε α) : Prop :=
  f.rest.Meets (asks f.start) (ends f.start) f.log

/-- The flight's calls to come are justified. -/
def Justified (asks : Start → List (Event Call Answer) → Call → Prop)
    (f : Flight Start Call Answer ε α) : Prop :=
  f.rest.Meets (asks f.start) (fun _ _ => True) f.log

variable {serve : (c : Call) → Answer c} {c : Call}

theorem Follows.call {ends : Start → List (Event Call Answer) → α → Prop}
    (held : f.Follows asks ends) (asked : f.next? = some c) : asks f.start f.log c := by
  unfold Follows at held
  unfold next? at asked
  cases left : f.rest with
  | ask c' next =>
      rw [left] at held asked
      cases asked
      exact held.1
  | done a => rw [left] at asked; cases asked
  | stop e => rw [left] at asked; cases asked

theorem Follows.advance {ends : Start → List (Event Call Answer) → α → Prop}
    (held : f.Follows asks ends) : (f.advance serve).Follows asks ends := by
  unfold Follows at held
  unfold Flight.advance
  cases left : f.rest with
  | ask c next =>
      rw [left] at held
      exact held.2 (serve c)
  | done a => exact held
  | stop e => exact held

theorem Follows.ends {ends : Start → List (Event Call Answer) → α → Prop}
    (held : f.Follows asks ends) {a : α} (done : f.rest = .done a) : ends f.start f.log a := by
  unfold Follows at held
  rw [done] at held
  exact held

theorem rest_of_result? {a : α} (ended : f.result? = some a) : f.rest = .done a := by
  unfold result? at ended
  split at ended
  · next done =>
      cases ended
      exact done
  · cases ended

@[simp]
theorem advance_start : (f.advance serve).start = f.start := by
  unfold Flight.advance
  split <;> rfl

theorem advance_log (asked : f.next? = some c) :
    (f.advance serve).log = f.log ++ [⟨c, serve c⟩] := by
  unfold next? at asked
  unfold Flight.advance
  split at asked
  · cases asked
    rfl
  · cases asked

end Flight

end Logweir.Programs
