import Mathlib.Data.String.Basic
import Logweir.Library.Fields

/-!
# Keys under a beginning, after a key

A store's keys in ascending order, and the part of them that starts with a text and
follows a key.  What follows a key of that part is the rest of it, so a listing resumed
at the last key of a page goes on where the page ended.
-/

set_option autoImplicit false

namespace Logweir.KeyRange

variable {content : List String}

/-- The keys that start with `start` and come strictly after `after`. -/
def under (content : List String) (start : String) (after : Option String) : List String :=
  content.filter fun k => Text.startsWith k start && after.all fun a => decide (a < k)

theorem mem_under {start : String} {after : Option String} {k : String} :
    k ∈ under content start after ↔
      k ∈ content ∧ Text.startsWith k start = true ∧ ∀ a, after = some a → a < k := by
  cases after with
  | none => simp [under]
  | some a => simp [under]

theorem pairwise_under (sorted : content.Pairwise (· < ·)) (start : String)
    (after : Option String) : (under content start after).Pairwise (· < ·) :=
  sorted.filter _

theorem filter_lt_of_split {α : Type} [LinearOrder α] {front back : List α} {x : α}
    (sorted : (front ++ x :: back).Pairwise (· < ·)) :
    (front ++ x :: back).filter (fun y => decide (x < y)) = back := by
  obtain ⟨_, tail, across⟩ := List.pairwise_append.mp sorted
  have above := (List.pairwise_cons.mp tail).1
  have below : front.filter (fun y => decide (x < y)) = [] :=
    List.filter_eq_nil_iff.mpr fun y mem past =>
      absurd (across y mem x List.mem_cons_self) (lt_asymm (of_decide_eq_true past))
  have kept : back.filter (fun y => decide (x < y)) = back :=
    List.filter_eq_self.mpr fun y mem => decide_eq_true (above y mem)
  rw [List.filter_append, below, List.filter_cons, if_neg (by simp), kept, List.nil_append]

theorem under_some_of_split (sorted : content.Pairwise (· < ·)) {start : String}
    {after : Option String} {front back : List String} {last : String}
    (split : under content start after = front ++ last :: back) :
    under content start (some last) = back := by
  have here : last ∈ under content start after := by
    rw [split]
    exact List.mem_append_right _ List.mem_cons_self
  obtain ⟨_, _, past⟩ := mem_under.mp here
  have narrowed : under content start (some last) =
      (under content start after).filter fun k => decide (last < k) := by
    unfold under
    rw [List.filter_filter]
    refine List.filter_congr fun k _ => ?_
    by_cases later : last < k
    · have after_ok : (after.all fun a => decide (a < k)) = true := by
        cases after with
        | none => rfl
        | some a => exact decide_eq_true (lt_trans (past a rfl) later)
      rw [after_ok, Option.all_some, decide_eq_true later, Bool.and_true, Bool.true_and]
    · rw [Option.all_some, decide_eq_false later, Bool.and_false, Bool.false_and]
  rw [narrowed, split]
  exact filter_lt_of_split (split ▸ pairwise_under sorted start after)

theorem under_after_page (sorted : content.Pairwise (· < ·)) {start : String}
    {after : Option String} {max : Nat} {last : String}
    (ends : ((under content start after).take max).getLast? = some last) :
    under content start (some last) = (under content start after).drop max := by
  obtain ⟨front, page⟩ := List.getLast?_eq_some_iff.mp ends
  have split : under content start after =
      front ++ last :: (under content start after).drop max := by
    rw [List.append_cons, ← page, List.take_append_drop]
  exact under_some_of_split sorted split

end Logweir.KeyRange
