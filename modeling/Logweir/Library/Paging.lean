import Logweir.Library.Results

/-!
# Listings read page by page

A listing answers a request for a page and says where the next page resumes, or
that there is none.  When every page hands over the front of what is left, and
leaves less to do, a client that follows the resumption points reads the whole
listing, in order and once, in finitely many pages.
-/

set_option autoImplicit false

namespace Logweir.Paging

variable {ε σ ρ β : Type}

/-- At most `n` pages from a resumption point, the first being request `i`. -/
def follow (request : Nat → σ → Except ε ρ) (next : ρ → Option σ) :
    Nat → Nat → σ → Except ε (List ρ)
  | 0, _, _ => .ok []
  | n + 1, i, s =>
      match request i s with
      | .error e => .error e
      | .ok page =>
          match next page with
          | none => .ok [page]
          | some s' =>
              match follow request next n (i + 1) s' with
              | .error e => .error e
              | .ok pages => .ok (page :: pages)

/-- Pages that hand over a listing: its items in order, each page as `Good` says
for its request, and a resumption point on every page but the last. -/
structure Whole (items : ρ → List β) (next : ρ → Option σ) (Good : Nat → ρ → Prop) (i : Nat)
    (left : List β) (pages : List ρ) : Prop where
  items_eq : pages.flatMap items = left
  last_iff : ∀ k page, pages[k]? = some page → (next page = none ↔ k + 1 = pages.length)
  good : ∀ k page, pages[k]? = some page → Good (i + k) page

/-- A page that hands over the front of `left` and resumes, if at all, where the
rest stands with less to do. -/
def Serves (Stands : Nat → σ → List β → Nat → Prop) (items : ρ → List β) (next : ρ → Option σ)
    (Good : Nat → ρ → Prop) (i : Nat) (left : List β) (work : Nat) (page : ρ) : Prop :=
  Good i page ∧ ∃ rest, left = items page ++ rest ∧ (next page = none → rest = []) ∧
    ∀ s', next page = some s' → ∃ less < work, Stands (i + 1) s' rest less

variable {Stands : Nat → σ → List β → Nat → Prop} {items : ρ → List β} {next : ρ → Option σ}
  {Good : Nat → ρ → Prop} {request : Nat → σ → Except ε ρ}

theorem whole_last {i : Nat} {page : ρ} (good : Good i page) (stops : next page = none) :
    Whole items next Good i (items page) [page] where
  items_eq := by rw [List.flatMap_cons, List.flatMap_nil, List.append_nil]
  last_iff := by
    intro k p here
    obtain ⟨rfl, rfl⟩ : k = 0 ∧ page = p := by
      cases k with
      | zero => exact ⟨rfl, Option.some.inj here⟩
      | succ k => exact nomatch here
    exact ⟨fun _ => rfl, fun _ => stops⟩
  good := by
    intro k p here
    cases k with
    | zero => exact Option.some.inj here ▸ good
    | succ k => exact nomatch here

theorem whole_cons {i : Nat} {page : ρ} {s' : σ} {rest : List β} {pages : List ρ}
    (good : Good i page) (resumes : next page = some s')
    (later : Whole items next Good (i + 1) rest pages) (more : pages ≠ []) :
    Whole items next Good i (items page ++ rest) (page :: pages) where
  items_eq := by rw [List.flatMap_cons, later.items_eq]
  last_iff := by
    intro k p here
    cases k with
    | zero =>
        rw [← Option.some.inj here, resumes, List.length_cons]
        have := List.length_pos_iff.mpr more
        exact ⟨fun stops => (nomatch stops), fun single => by omega⟩
    | succ k =>
        rw [List.getElem?_cons_succ] at here
        rw [later.last_iff k p here, List.length_cons]
        omega
  good := by
    intro k p here
    cases k with
    | zero => exact Option.some.inj here ▸ good
    | succ k =>
        rw [List.getElem?_cons_succ] at here
        have good' := later.good k p here
        rwa [Nat.add_assoc, Nat.add_comm 1 k] at good'

theorem follow_whole
    (serves : ∀ i s left work, Stands i s left work →
      ∃ page, request i s = .ok page ∧ Serves Stands items next Good i left work page) :
    ∀ n i s left work, Stands i s left work → work < n →
      ∃ pages, follow request next n i s = .ok pages ∧ pages ≠ [] ∧
        Whole items next Good i left pages := by
  intro n
  induction n with
  | zero => intro i s left work _ enough; omega
  | succ n ih =>
      intro i s left work stands enough
      obtain ⟨page, answered, good, rest, front, stops, resumes⟩ := serves i s left work stands
      cases goesOn : next page with
      | none =>
          refine ⟨[page], ?_, List.cons_ne_nil _ _, ?_⟩
          · rw [follow, answered]
            simp only [goesOn]
          · rw [front, stops goesOn, List.append_nil]
            exact whole_last good goesOn
      | some s' =>
          obtain ⟨less, fewer, stands'⟩ := resumes s' goesOn
          obtain ⟨pages, read, more, whole⟩ := ih (i + 1) s' rest less stands' (by omega)
          refine ⟨page :: pages, ?_, List.cons_ne_nil _ _, ?_⟩
          · rw [follow, answered]
            simp only [goesOn, read]
          · rw [front]
            exact whole_cons good goesOn whole more

end Logweir.Paging
