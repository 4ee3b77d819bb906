import Mathlib.Data.List.Infix
import Mathlib.Data.List.Nodup
import Mathlib.Logic.Relation

/-!
# Depth-first order

A node is put after what it depends on.  One that is under way is not visited again, so a walk to a
depth above the number of nodes not under way never stops for its depth, and where no node depends on
itself every node follows its dependencies.
-/

set_option autoImplicit false

namespace Logweir.DepthFirst

open Relation (TransGen)

variable {α κ : Type} [DecidableEq κ] (key : α → κ) (deps : α → List α)

def visit : Nat → List κ → List α → α → List α
  | 0, _, order, _ => order
  | depth + 1, visiting, order, v =>
      if key v ∈ order.map key ∨ key v ∈ visiting then order
      else (deps v).foldl (visit depth (key v :: visiting)) order ++ [v]

/-- The nodes have keys of their own, and depend on nodes. -/
structure Closed (nodes : List α) : Prop where
  distinct : (nodes.map key).Nodup
  deps : ∀ v ∈ nodes, ∀ d ∈ deps v, d ∈ nodes

def DependsOn (v d : α) : Prop := d ∈ deps v

def left (nodes : List α) (visiting : List κ) : Nat :=
  (nodes.filter fun v => key v ∉ visiting).length

variable {key deps} {nodes : List α}

theorem left_nil : left key nodes [] = nodes.length := by
  rw [left, List.filter_eq_self.mpr]
  exact fun _ _ => decide_eq_true List.not_mem_nil

theorem left_lt {v : α} {visiting : List κ} (node : v ∈ nodes) (idle : key v ∉ visiting) :
    left key nodes (key v :: visiting) < left key nodes visiting := by
  have split_ : nodes.filter (fun w => key w ∉ key v :: visiting) =
      (nodes.filter fun w => key w ∉ visiting).filter fun w => key w ≠ key v := by
    rw [List.filter_filter]
    refine List.filter_congr fun w _ => ?_
    simp [not_or]
  rw [left, split_, left, List.length_filter_lt_length_iff_exists]
  exact ⟨v, List.mem_filter.mpr ⟨node, decide_eq_true idle⟩, by simp⟩

/-- A fold of steps that each relate what they start from to what they leave. -/
theorem foldl_related {R : List α → List α → Prop} (refl : ∀ order, R order order)
    (trans : ∀ {a b c}, R a b → R b c → R a c) {f : List α → α → List α} :
    ∀ (l : List α) (order : List α), (∀ v ∈ l, ∀ order, R order (f order v)) →
      R order (l.foldl f order) := by
  intro l
  induction l with
  | nil => exact fun order _ => refl order
  | cons v l ih =>
      intro order steps
      exact trans (steps v List.mem_cons_self order)
        (ih _ fun w member => steps w (List.mem_cons_of_mem v member))

theorem visit_prefix : ∀ (depth : Nat) (visiting : List κ) (v : α) (order : List α),
    order <+: visit key deps depth visiting order v := by
  intro depth
  induction depth with
  | zero => exact fun _ _ order => List.prefix_refl order
  | succ depth ih =>
      intro visiting v order
      rw [visit]
      split
      · exact List.prefix_refl order
      · have below : order <+: (deps v).foldl (visit key deps depth (key v :: visiting)) order :=
          foldl_related List.prefix_refl List.IsPrefix.trans (deps v) order
            fun d _ order => ih _ d order
        exact below.trans (List.prefix_append _ _)

theorem mem_of_mem_visit (closed : Closed key deps nodes) {x : α} :
    ∀ (depth : Nat) (visiting : List κ) (v : α), v ∈ nodes → ∀ order,
      x ∈ visit key deps depth visiting order v → x ∈ order ∨ x ∈ nodes := by
  intro depth
  induction depth with
  | zero => exact fun _ _ _ order there => .inl there
  | succ depth ih =>
      intro visiting v node order there
      rw [visit] at there
      split at there
      · exact .inl there
      · rcases List.mem_append.mp there with below | last
        · have related := foldl_related (R := fun a b => x ∈ b → x ∈ a ∨ x ∈ nodes)
            (fun _ there => .inl there)
            (fun first second there => (second there).elim first .inr) (deps v) order
            fun d dep order => ih (key v :: visiting) d (closed.deps v node d dep) order
          exact related below
        · rw [List.mem_singleton.mp last]
          exact .inr node

theorem visit_placed {depth : Nat} {visiting : List κ} {v : α} (idle : key v ∉ visiting)
    (order : List α) : key v ∈ (visit key deps (depth + 1) visiting order v).map key := by
  rw [visit]
  split
  · rename_i done_
    exact done_.resolve_right idle
  · rw [List.map_append]
    exact List.mem_append_right _ List.mem_cons_self

/-- Above the number of nodes that are left, the depth makes no difference. -/
theorem visit_depth (closed : Closed key deps nodes) :
    ∀ (depth depth' : Nat) (visiting : List κ) (v : α), v ∈ nodes →
      left key nodes visiting < depth → left key nodes visiting < depth' → ∀ order,
        visit key deps depth visiting order v = visit key deps depth' visiting order v := by
  intro depth
  induction depth with
  | zero => exact fun _ _ _ _ above => absurd above (Nat.not_lt_zero _)
  | succ depth ih =>
      intro depth' visiting v node above above' order
      cases depth' with
      | zero => exact absurd above' (Nat.not_lt_zero _)
      | succ depth' =>
          rw [visit, visit]
          split
          · rfl
          · rename_i idle
            rw [not_or] at idle
            have fewer := left_lt node idle.2
            congr 1
            refine List.foldl_ext _ _ _ fun order d dep => ?_
            exact ih depth' _ d (closed.deps v node d dep) (by omega) (by omega) order

/-- Everything follows what it depends on. -/
def Ordered (deps : α → List α) (order : List α) : Prop :=
  ∀ a x b, order = a ++ x :: b → ∀ d ∈ deps x, d ∈ a

theorem ordered_concat {order : List α} {v : α} (ordered : Ordered deps order)
    (placed : ∀ d ∈ deps v, d ∈ order) : Ordered deps (order ++ [v]) := by
  intro a x b same d dep
  rcases List.eq_nil_or_concat b with rfl | ⟨b, w, rfl⟩
  · obtain ⟨rfl, last⟩ := List.append_inj' same rfl
    cases last
    exact placed d dep
  · rw [List.concat_eq_append, ← List.cons_append, ← List.append_assoc] at same
    obtain ⟨rfl, -⟩ := List.append_inj' same rfl
    exact ordered a x b rfl d dep

/-- What a visit leaves: an order of nodes, in which everything follows what it depends on. -/
structure Good (deps : α → List α) (nodes order : List α) : Prop where
  nodes : ∀ x ∈ order, x ∈ nodes
  ordered : Ordered deps order

theorem foldl_good {f : List α → α → List α} : ∀ (l : List α) (order : List α),
    Good deps nodes order →
    (∀ d ∈ l, ∀ order, Good deps nodes order →
      Good deps nodes (f order d) ∧ order <+: f order d ∧ d ∈ f order d) →
    Good deps nodes (l.foldl f order) ∧ order <+: l.foldl f order ∧ ∀ d ∈ l, d ∈ l.foldl f order := by
  intro l
  induction l with
  | nil => exact fun order good _ => ⟨good, List.prefix_refl order, fun d there => by cases there⟩
  | cons d l ih =>
      intro order good step
      obtain ⟨good', longer, placed⟩ := step d List.mem_cons_self order good
      obtain ⟨good'', longer', others⟩ :=
        ih (f order d) good' fun e member => step e (List.mem_cons_of_mem d member)
      refine ⟨good'', longer.trans longer', fun e member => ?_⟩
      rcases List.mem_cons.mp member with rfl | later
      · exact longer'.subset placed
      · exact others e later

/-- Where no node depends on itself, a visit puts the node after all it depends on: what is under way
depends on the node, so the node does not depend on it. -/
theorem visit_good (closed : Closed key deps nodes)
    (acyclic : ∀ v ∈ nodes, ¬ TransGen (DependsOn deps) v v) :
    ∀ (depth : Nat) (visiting : List κ) (v : α), v ∈ nodes → left key nodes visiting < depth →
      (∀ u ∈ nodes, key u ∈ visiting → TransGen (DependsOn deps) u v) →
      ∀ order, Good deps nodes order → Good deps nodes (visit key deps depth visiting order v) ∧
        order <+: visit key deps depth visiting order v ∧ v ∈ visit key deps depth visiting order v := by
  intro depth
  induction depth with
  | zero => exact fun _ _ _ above => absurd above (Nat.not_lt_zero _)
  | succ depth ih =>
      intro visiting v node above path order good
      have same {u : α} (node' : u ∈ nodes) (named : key u = key v) : u = v :=
        List.inj_on_of_nodup_map closed.distinct node' node named
      have idle : key v ∉ visiting := fun busy => acyclic v node (path v node busy)
      rw [visit]
      split
      · rename_i done_
        obtain ⟨u, there, named⟩ := List.mem_map.mp (done_.resolve_right idle)
        exact ⟨good, List.prefix_refl order, same (good.nodes u there) named ▸ there⟩
      · have fewer := left_lt node idle
        have each : ∀ d ∈ deps v, ∀ order, Good deps nodes order →
            Good deps nodes (visit key deps depth (key v :: visiting) order d) ∧
              order <+: visit key deps depth (key v :: visiting) order d ∧
              d ∈ visit key deps depth (key v :: visiting) order d := by
          intro d dep order good
          refine ih (key v :: visiting) d (closed.deps v node d dep) (by omega) ?_ order good
          intro u node' busy
          rcases List.mem_cons.mp busy with named | busy
          · exact same node' named ▸ TransGen.single dep
          · exact (path u node' busy).tail dep
        obtain ⟨below, longer, placed⟩ := foldl_good (deps v) order good each
        refine ⟨⟨fun x there => ?_, ordered_concat below.ordered placed⟩,
          longer.trans (List.prefix_append _ _), List.mem_append_right _ List.mem_cons_self⟩
        rcases List.mem_append.mp there with old | last
        · exact below.nodes x old
        · exact List.mem_singleton.mp last ▸ node

end Logweir.DepthFirst
