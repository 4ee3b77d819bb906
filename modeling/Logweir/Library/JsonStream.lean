import Logweir.Library.JsonReading

/-!
# Reading JSON as it streams past

A reader takes a value off a text and leaves less of it.  Readers of every shape are built from one
pass over the tokens, the elements of an array and the entries of an object, to a limit of nesting;
the tokens themselves are a parameter.  Two readers built alike take the same texts, leave the same
rests, and give values that stay related from one element or entry to the next.
-/

set_option autoImplicit false

namespace Logweir.JsonStream

open Logweir.JsonValues (Value Number put)

inductive Scalar where
  | null
  | bool (b : Bool)
  | number (n : Number)
  | string (s : String)

def Scalar.value : Scalar → Value
  | .null => .null
  | .bool b => .bool b
  | .number n => .number n
  | .string s => .string s

inductive Token where
  | beginArray
  | endArray
  | beginObject
  | endObject
  | comma
  | colon
  | scalar (s : Scalar)

/-- What is left of a text once something was read. -/
abbrev Rest (bytes : List UInt8) := { rest : List UInt8 // rest.length < bytes.length }

def Rest.later {bytes : List UInt8} (rest : Rest bytes) (further : Rest rest.1) : Rest bytes :=
  ⟨further.1, Nat.lt_trans further.2 rest.2⟩

abbrev Reader (α : Type) := (bytes : List UInt8) → Option (α × Rest bytes)

def Reader.map {α β : Type} (f : α → β) (r : Reader α) : Reader β :=
  fun bytes => (r bytes).map fun read => (f read.1, read.2)

/-- A container is opened only while nesting is left. -/
def within {α : Type} (depth : Nat) (opened : Nat → Reader α) : Option (Reader α) :=
  match depth with
  | 0 => none
  | depth + 1 => some (opened depth)

/-- The next token of a text, white space before it skipped, and whether nothing but white space is
left. -/
structure Lexer where
  next : Reader Token
  ended : List UInt8 → Bool

namespace Lexer

variable (L : Lexer) {α σ : Type}

/-- An element, and what follows it to the end of the array. -/
def moreElements (step : σ → Reader σ) (s : σ) (bytes : List UInt8) : Option (σ × Rest bytes) :=
  match step s bytes with
  | none => none
  | some (s', rest) =>
      match L.next rest.1 with
      | some (.endArray, after) => some (s', rest.later after)
      | some (.comma, after) =>
          (moreElements step s' after.1).map fun read => (read.1, rest.later (after.later read.2))
      | _ => none
termination_by bytes.length
decreasing_by exact Nat.lt_trans after.2 rest.2

/-- The elements of an array whose bracket was read. -/
def elements (step : σ → Reader σ) (s : σ) : Reader σ := fun bytes =>
  match L.next bytes with
  | none => none
  | some (.endArray, rest) => some (s, rest)
  | some _ => L.moreElements step s bytes

/-- An entry, and what follows it to the end of the object. -/
def moreEntries (step : σ → String → Reader σ) (s : σ) (bytes : List UInt8) :
    Option (σ × Rest bytes) :=
  match L.next bytes with
  | some (.scalar (.string key), named) =>
      match L.next named.1 with
      | some (.colon, marked) =>
          match step s key marked.1 with
          | none => none
          | some (s', rest) =>
              match L.next rest.1 with
              | some (.endObject, after) =>
                  some (s', named.later (marked.later (rest.later after)))
              | some (.comma, after) => (moreEntries step s' after.1).map fun read =>
                  (read.1, named.later (marked.later (rest.later (after.later read.2))))
              | _ => none
      | _ => none
  | _ => none
termination_by bytes.length
decreasing_by
  exact Nat.lt_trans after.2 (Nat.lt_trans rest.2 (Nat.lt_trans marked.2 named.2))

/-- The entries of an object whose brace was read. -/
def entries (step : σ → String → Reader σ) (s : σ) : Reader σ := fun bytes =>
  match L.next bytes with
  | none => none
  | some (.endObject, rest) => some (s, rest)
  | some _ => L.moreEntries step s bytes

/-- One value, by its shape; a container is read as far as nesting allows. -/
def any (scalar : Scalar → α) (seq map : Option (Reader α)) : Reader α := fun bytes =>
  match L.next bytes with
  | some (.scalar s, rest) => some (scalar s, rest)
  | some (.beginArray, rest) =>
      seq.bind fun r => (r rest.1).map fun read => (read.1, rest.later read.2)
  | some (.beginObject, rest) =>
      map.bind fun r => (r rest.1).map fun read => (read.1, rest.later read.2)
  | _ => none

def skip : Nat → Reader Unit
  | 0 => L.any (fun _ => ()) none none
  | depth + 1 => L.any (fun _ => ()) (some (L.elements (fun _ => skip depth) ()))
      (some (L.entries (fun _ _ => skip depth) ()))

/-- A value read into a tree; of the entries of one key the last is kept. -/
def value : Nat → Reader Value
  | 0 => L.any Scalar.value none none
  | depth + 1 => L.any Scalar.value
      (some ((L.elements (fun items => (value depth).map fun v => items ++ [v]) []).map .array))
      (some ((L.entries (fun fields key => (value depth).map fun v => put key v fields) []).map
        .object))

def document (r : Reader α) (bytes : List UInt8) : Option α :=
  (r bytes).bind fun read => if L.ended read.2.1 then some read.1 else none

end Lexer

/-- The same text left, with related values. -/
def Both {α β γ : Type} (R : α → β → Prop) : Option (α × γ) → Option (β × γ) → Prop :=
  Option.Rel fun x y => R x.1 y.1 ∧ x.2 = y.2

/-- Two readers that take the same texts and leave the same rests, with related values. -/
def Alike {α β : Type} (R : α → β → Prop) (r : Reader α) (r' : Reader β) : Prop :=
  ∀ bytes, Both R (r bytes) (r' bytes)

section

variable {α β α' β' γ δ : Type} {R : α → β → Prop} {R' : α' → β' → Prop} {r : Reader α}
  {r' : Reader β}

theorem Both.cases {x : Option (α × γ)} {y : Option (β × γ)} (both : Both R x y) :
    (x = none ∧ y = none) ∨
      ∃ a b rest, R a b ∧ x = some (a, rest) ∧ y = some (b, rest) := by
  cases both with
  | none => exact .inl ⟨rfl, rfl⟩
  | @some x y both =>
      obtain ⟨a, rest⟩ := x
      obtain ⟨b, rest'⟩ := y
      obtain ⟨related, same⟩ := both
      cases same
      exact .inr ⟨a, b, rest, related, rfl, rfl⟩

theorem Both.rest {x : Option (α × γ)} {y : Option (β × γ)} (both : Both R x y) (f : γ → δ) :
    Both R (x.map fun read => (read.1, f read.2)) (y.map fun read => (read.1, f read.2)) := by
  cases both with
  | none => exact .none
  | some both => exact .some ⟨both.1, congrArg f both.2⟩

theorem Alike.map (alike : Alike R r r') (f : α → α') (g : β → β')
    (each : ∀ a b, R a b → R' (f a) (g b)) : Alike R' (r.map f) (r'.map g) := by
  intro bytes
  unfold Reader.map
  rcases (alike bytes).cases with ⟨none_, none_'⟩ | ⟨a, b, rest, related, here, here'⟩
  · rw [none_, none_']
    exact .none
  · rw [here, here']
    exact .some ⟨each a b related, rfl⟩

theorem Alike.map_right {R' : α → β' → Prop} (alike : Alike R r r') (g : β → β')
    (each : ∀ a b, R a b → R' a (g b)) : Alike R' r (r'.map g) := by
  have same : r.map id = r := by
    funext bytes
    unfold Reader.map
    cases r bytes <;> rfl
  have mapped : Alike R' (r.map id) (r'.map g) := alike.map id g each
  rwa [same] at mapped

variable (L : Lexer)

theorem alike_moreElements {step : α → Reader α} {step' : β → Reader β}
    (each : ∀ s t, R s t → Alike R (step s) (step' t)) (bytes : List UInt8) :
    ∀ s t, R s t → Both R (L.moreElements step s bytes) (L.moreElements step' t bytes) := by
  induction size : bytes.length using Nat.strong_induction_on generalizing bytes with
  | _ n ih =>
      intro s t related
      rw [Lexer.moreElements, Lexer.moreElements]
      rcases (each s t related bytes).cases with
        ⟨none_, none_'⟩ | ⟨s', t', rest, related', here, here'⟩
      · rw [none_, none_']
        exact .none
      · rw [here, here']
        dsimp only
        split
        · exact .some ⟨related', rfl⟩
        · rename_i after _
          have shorter : after.1.length < n := size ▸ Nat.lt_trans after.2 rest.2
          exact (ih after.1.length shorter after.1 rfl s' t' related').rest fun read =>
            rest.later (after.later read)
        · exact .none

theorem alike_elements {step : α → Reader α} {step' : β → Reader β} {s : α} {t : β}
    (each : ∀ s t, R s t → Alike R (step s) (step' t)) (related : R s t) :
    Alike R (L.elements step s) (L.elements step' t) := by
  intro bytes
  unfold Lexer.elements
  split
  · exact .none
  · exact .some ⟨related, rfl⟩
  · exact alike_moreElements L each bytes s t related

theorem alike_moreEntries {step : α → String → Reader α} {step' : β → String → Reader β}
    (each : ∀ s t key, R s t → Alike R (step s key) (step' t key)) (bytes : List UInt8) :
    ∀ s t, R s t → Both R (L.moreEntries step s bytes) (L.moreEntries step' t bytes) := by
  induction size : bytes.length using Nat.strong_induction_on generalizing bytes with
  | _ n ih =>
      intro s t related
      rw [Lexer.moreEntries, Lexer.moreEntries]
      split
      · rename_i key named _
        split
        · rename_i marked _
          rcases (each s t key related marked.1).cases with
            ⟨none_, none_'⟩ | ⟨s', t', rest, related', here, here'⟩
          · rw [none_, none_']
            exact .none
          · rw [here, here']
            dsimp only
            split
            · exact .some ⟨related', rfl⟩
            · rename_i after _
              have shorter : after.1.length < n := size ▸ Nat.lt_trans after.2
                (Nat.lt_trans rest.2 (Nat.lt_trans marked.2 named.2))
              exact (ih after.1.length shorter after.1 rfl s' t' related').rest fun read =>
                named.later (marked.later (rest.later (after.later read)))
            · exact .none
        · exact .none
      · exact .none

theorem alike_entries {step : α → String → Reader α} {step' : β → String → Reader β} {s : α} {t : β}
    (each : ∀ s t key, R s t → Alike R (step s key) (step' t key)) (related : R s t) :
    Alike R (L.entries step s) (L.entries step' t) := by
  intro bytes
  unfold Lexer.entries
  split
  · exact .none
  · exact .some ⟨related, rfl⟩
  · exact alike_moreEntries L each bytes s t related

theorem alike_any {scalar : Scalar → α} {scalar' : Scalar → β} {depth : Nat}
    {seq map : Nat → Reader α} {seq' map' : Nat → Reader β}
    (scalars : ∀ s, R (scalar s) (scalar' s)) (seqs : ∀ d < depth, Alike R (seq d) (seq' d))
    (maps : ∀ d < depth, Alike R (map d) (map' d)) :
    Alike R (L.any scalar (within depth seq) (within depth map))
      (L.any scalar' (within depth seq') (within depth map')) := by
  intro bytes
  unfold Lexer.any
  split
  · exact .some ⟨scalars _, rfl⟩
  · cases depth with
    | zero => exact .none
    | succ depth => exact (seqs depth (Nat.lt_succ_self depth) _).rest _
  · cases depth with
    | zero => exact .none
    | succ depth => exact (maps depth (Nat.lt_succ_self depth) _).rest _
  · exact .none

theorem alike_document (alike : Alike R r r') (bytes : List UInt8) :
    Option.Rel R (L.document r bytes) (L.document r' bytes) := by
  unfold Lexer.document
  rcases (alike bytes).cases with ⟨none_, none_'⟩ | ⟨a, b, rest, related, here, here'⟩
  · rw [none_, none_']
    exact .none
  · rw [here, here', Option.bind_some, Option.bind_some]
    dsimp only
    split
    · exact .some related
    · exact .none

theorem skip_eq (depth : Nat) : L.skip depth = L.any (fun _ => ())
    (within depth fun d => L.elements (fun _ => L.skip d) ())
    (within depth fun d => L.entries (fun _ _ => L.skip d) ()) := by
  cases depth with
  | zero => rfl
  | succ depth => rfl

theorem value_eq (depth : Nat) : L.value depth = L.any Scalar.value
    (within depth fun d =>
      (L.elements (fun items => (L.value d).map fun v => items ++ [v]) []).map .array)
    (within depth fun d =>
      (L.entries (fun fields key => (L.value d).map fun v => put key v fields) []).map .object) := by
  cases depth with
  | zero => rfl
  | succ depth => rfl

theorem alike_skip (depth : Nat) : Alike (fun _ _ => True) (L.skip depth) (L.value depth) := by
  induction depth using Nat.strong_induction_on with
  | _ depth ih =>
      rw [skip_eq, value_eq]
      refine alike_any L (fun _ => trivial) (fun d less => ?_) fun d less => ?_
      · exact (alike_elements L (fun _ _ _ => (ih d less).map_right _ fun _ _ h => h)
          trivial).map_right _ fun _ _ h => h
      · exact (alike_entries L (fun _ _ _ _ => (ih d less).map_right _ fun _ _ h => h)
          trivial).map_right _ fun _ _ h => h

theorem alike_skipElements (depth : Nat) : Alike (fun _ _ => True)
    (L.elements (fun _ => L.skip depth) ())
    (L.elements (fun items => (L.value depth).map fun v => items ++ [v]) []) :=
  alike_elements L (fun _ _ _ => (alike_skip L depth).map_right _ fun _ _ h => h) trivial

theorem alike_skipEntries (depth : Nat) : Alike (fun _ _ => True)
    (L.entries (fun _ _ => L.skip depth) ())
    (L.entries (fun fields key => (L.value depth).map fun v => put key v fields) []) :=
  alike_entries L (fun _ _ _ _ => (alike_skip L depth).map_right _ fun _ _ h => h) trivial

end

end Logweir.JsonStream
