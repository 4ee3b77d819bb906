import Mathlib.Data.List.Nodup

/-!
# Facts that may be left out

A document may state less than what backs it and nothing else: what is left out is
unknown.  Two documents backed by one disagree about nothing that both state.  Where
the facts stand in rows found by name, the first row of a name speaks for it.
-/

set_option autoImplicit false

namespace Logweir.PartialFacts

variable {α κ ρ δ : Type}

def Backed (stated backing : Option α) : Prop := ∀ x, stated = some x → backing = some x

/-- Both state something, and not the same. -/
def Disagree (a b : Option α) : Prop := ∃ x y, a = some x ∧ b = some y ∧ x ≠ y

theorem Backed.refl (a : Option α) : Backed a a := fun _ stated => stated

theorem Disagree.symm {a b : Option α} (differ : Disagree a b) : Disagree b a := by
  obtain ⟨x, y, left, right, apart⟩ := differ
  exact ⟨y, x, right, left, Ne.symm apart⟩

theorem not_disagree_none {a : Option α} : ¬ Disagree a none := by
  rintro ⟨x, y, _, right, _⟩
  cases right

theorem not_disagree_of_backed {a b backing : Option α} (left : Backed a backing)
    (right : Backed b backing) : ¬ Disagree a b := by
  rintro ⟨x, y, statedA, statedB, apart⟩
  have one := left x statedA
  have other := right y statedB
  exact apart (Option.some.inj (one.symm.trans other))

section Checks

variable [DecidableEq α]

/-- The line of a stated fact that is not backed. -/
def unbacked (stated backing : Option α) (line : α → δ) : Option δ :=
  match stated with
  | none => none
  | some x => if backing ≠ some x then some (line x) else none

@[simp] theorem unbacked_eq_none {stated backing : Option α} {line : α → δ} :
    unbacked stated backing line = none ↔ Backed stated backing := by
  cases stated with
  | none => simp [unbacked, Backed]
  | some x => simp [unbacked, Backed]

/-- The line of two facts that disagree. -/
def disagreeing (a b : Option α) (line : α → α → δ) : Option δ :=
  match a, b with
  | some x, some y => if x ≠ y then some (line x y) else none
  | some _, none => none
  | none, some _ => none
  | none, none => none

@[simp] theorem disagreeing_eq_none {a b : Option α} {line : α → α → δ} :
    disagreeing a b line = none ↔ ¬ Disagree a b := by
  cases a with
  | none => cases b <;> simp [disagreeing, Disagree]
  | some x =>
      cases b with
      | none => simp [disagreeing, Disagree]
      | some y => simp [disagreeing, Disagree]

end Checks

section Rows

variable (name : ρ → κ) (fact : ρ → Option α)

/-- Rows of one name state a fact otherwise. -/
def RowsDisagree (as bs : List ρ) : Prop :=
  ∃ r ∈ as, ∃ s ∈ bs, name s = name r ∧ Disagree (fact r) (fact s)

theorem RowsDisagree.symm {as bs : List ρ} (differ : RowsDisagree name fact as bs) :
    RowsDisagree name fact bs as := by
  obtain ⟨r, inA, s, inB, same, apart⟩ := differ
  exact ⟨s, inB, r, inA, same.symm, apart.symm⟩

theorem not_rowsDisagree_of_backed {backing : κ → Option α} {as bs : List ρ}
    (left : ∀ r ∈ as, Backed (fact r) (backing (name r)))
    (right : ∀ s ∈ bs, Backed (fact s) (backing (name s))) : ¬ RowsDisagree name fact as bs := by
  rintro ⟨r, inA, s, inB, same, apart⟩
  have backed := right s inB
  rw [same] at backed
  exact not_disagree_of_backed (left r inA) backed apart

variable [DecidableEq κ]

def firstRow (rows : List ρ) (k : κ) : Option ρ := rows.find? fun s => name s = k

theorem firstRow_some {rows : List ρ} {k : κ} {s : ρ} (found : firstRow name rows k = some s) :
    s ∈ rows ∧ name s = k := by
  have holds := List.find?_some found
  exact ⟨List.mem_of_find?_eq_some found, of_decide_eq_true holds⟩

theorem firstRow_of_mem {rows : List ρ} (once : (rows.map name).Nodup) {s : ρ} (mem : s ∈ rows) :
    firstRow name rows (name s) = some s := by
  cases found : firstRow name rows (name s) with
  | none =>
      have apart := List.find?_eq_none.mp found s mem
      simp at apart
  | some r =>
      obtain ⟨here, same⟩ := firstRow_some name found
      rw [List.inj_on_of_nodup_map once here mem same]

/-- No row disagrees with the row that speaks for its name. -/
def FirstRowsAgree (as bs : List ρ) : Prop :=
  ∀ r ∈ as, ¬ Disagree (fact r) ((firstRow name bs (name r)).bind fact)

theorem firstRowsAgree_of_not_rowsDisagree {as bs : List ρ}
    (agree : ¬ RowsDisagree name fact as bs) : FirstRowsAgree name fact as bs := by
  intro r mem differ
  cases found : firstRow name bs (name r) with
  | none =>
      rw [found, Option.bind_none] at differ
      exact not_disagree_none differ
  | some s =>
      rw [found, Option.bind_some] at differ
      obtain ⟨here, same⟩ := firstRow_some name found
      exact agree ⟨r, mem, s, here, same, differ⟩

/-- Where a name is listed once, comparing with the first row misses nothing. -/
theorem firstRowsAgree_iff {as bs : List ρ} (once : (bs.map name).Nodup) :
    FirstRowsAgree name fact as bs ↔ ¬ RowsDisagree name fact as bs := by
  refine ⟨fun agree differ => ?_, firstRowsAgree_of_not_rowsDisagree name fact⟩
  obtain ⟨r, mem, s, here, same, apart⟩ := differ
  refine agree r mem ?_
  rw [← same, firstRow_of_mem name once here, Option.bind_some]
  exact apart

end Rows

end Logweir.PartialFacts
