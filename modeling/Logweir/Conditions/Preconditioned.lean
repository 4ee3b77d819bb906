import Logweir.Conditions.Patch

/-!
# Status writes under a precondition

`weirkeeper::conditions::patch_status_preconditioned`: a `/status` write is a compare-and-set on
the object's version, and a pass threads the version that its own writes leave.
-/

set_option autoImplicit false

namespace Logweir.Conditions

open Logweir.JsonValues

/-- `StatusVersion::observed` -/
def observed (resourceVersion : Option String) : Option String :=
  resourceVersion.filter fun v => v ≠ ""

inductive WriteError where
  | discovery (message : String)
  | notFound
  | conflict
deriving DecidableEq

/-- An object's versions, newest first, each with its status. -/
abbrev Versions := List (String × Value)

def stores (status patch : Value) : Value :=
  match get "status" patch with
  | some block => applyMergePatch status block
  | none => status

/-- The API server's answer to a preconditioned patch, which stores the version `next`. -/
def Versions.patchStatus (stored : Versions) (resourceVersion : String) (patch : Value)
    (next : String) : Except WriteError Versions :=
  match stored with
  | [] => .error .notFound
  | (version, status) :: _ =>
      if version = resourceVersion then .ok ((next, stores status patch) :: stored)
      else .error .conflict

def patchStatusPreconditioned (kind name : String) (at_ : Option String) (current : Option Value)
    (patch : Value) (stored : Versions) (next : String) :
    Except WriteError (Option String) × Versions :=
  if statusUnchanged current patch then (.ok at_, stored)
  else
    match at_ with
    | none =>
        (.error (.discovery (s!"{kind} {name} carries no metadata.resourceVersion, which a /status " ++
          "compare-and-set needs (D-SEAMS S7)")), stored)
    | some resourceVersion =>
        match stored.patchStatus resourceVersion patch next with
        | .error e => (.error e, stored)
        | .ok stored => (.ok (observed (some next)), stored)

/-- A pass over the object: the status it was handed, where the object stands, and the patches
it has had applied. -/
structure Pass where
  current : Option Value
  at_ : Option String
  sent : List Value

def Pass.expects (pass : Pass) : Value := pass.sent.foldl stores (pass.current.getD .null)

def Pass.wrote (pass : Pass) (patch : Value) (at_ : Option String) : Pass :=
  { pass with
    at_
    sent := if statusUnchanged pass.current patch then pass.sent else pass.sent ++ [patch] }

structure State where
  stored : Versions
  passes : List Pass

def asRead : Value → Option Value
  | .null => none
  | status => some status

/-- Any pass, of any writer, at any moment.  A pass may be handed a version long replaced; it may
end before it learns how its write went; and others write as they like. -/
inductive Step (kind name : String) : State → State → Prop where
  | begins {s : State} {version : String} {status : Value} (handed : (version, status) ∈ s.stored) :
      Step kind name s { s with passes := ⟨asRead status, observed (some version), []⟩ :: s.passes }
  | other {s : State} {next : String} (fresh : next ∉ s.stored.map Prod.fst) (status : Value) :
      Step kind name s { s with stored := (next, status) :: s.stored }
  | writes {s : State} {before after : List Pass} {pass : Pass} {next : String} {at_ : Option String}
      {stored : Versions} (among : s.passes = before ++ pass :: after)
      (fresh : next ∉ s.stored.map Prod.fst) (patch : Value)
      (answered : patchStatusPreconditioned kind name pass.at_ pass.current patch s.stored next =
        (.ok at_, stored)) :
      Step kind name s ⟨stored, before ++ pass.wrote patch at_ :: after⟩
  | ends {s : State} {before after : List Pass} {pass : Pass} {next : String}
      (among : s.passes = before ++ pass :: after) (fresh : next ∉ s.stored.map Prod.fst)
      (patch : Value) :
      Step kind name s
        ⟨(patchStatusPreconditioned kind name pass.at_ pass.current patch s.stored next).2,
          before ++ after⟩

inductive Reaches (kind name : String) : State → Prop where
  | start (version : String) (status : Value) : Reaches kind name ⟨[(version, status)], []⟩
  | step {s s' : State} (reached : Reaches kind name s) (step : Step kind name s s') :
      Reaches kind name s'

/-- Versions are not used again, and where a pass stands, the status is what it read with its own
patches merged onto it. -/
structure Coherent (s : State) : Prop where
  once : (s.stored.map Prod.fst).Nodup
  stands : ∀ pass ∈ s.passes, ∀ version, pass.at_ = some version →
    (version, pass.expects) ∈ s.stored

variable {kind name : String}

theorem getD_asRead (status : Value) : (asRead status).getD .null = status := by
  cases status <;> rfl

theorem observed_eq_some {version v : String} (is : observed (some version) = some v) :
    v = version :=
  (Option.some.inj (Option.filter_eq_some_iff.mp is).1).symm

theorem Pass.expects_wrote (pass : Pass) (patch : Value) (at_ : Option String) :
    (pass.wrote patch at_).expects =
      if statusUnchanged pass.current patch then pass.expects else stores pass.expects patch := by
  unfold Pass.expects Pass.wrote
  cases statusUnchanged pass.current patch with
  | true => rfl
  | false => exact List.foldl_append

/-- A write leaves everything as it was, or appends the merge of its patch onto the version the
pass stands at. -/
theorem write_cases (pass : Pass) (patch : Value) (stored : Versions) (next : String) :
    ((patchStatusPreconditioned kind name pass.at_ pass.current patch stored next).2 = stored ∧
      ∀ at_, (patchStatusPreconditioned kind name pass.at_ pass.current patch stored next).1 =
        .ok at_ → at_ = pass.at_ ∧ statusUnchanged pass.current patch = true) ∨
    ∃ version status older, stored = (version, status) :: older ∧ pass.at_ = some version ∧
      statusUnchanged pass.current patch = false ∧
      patchStatusPreconditioned kind name pass.at_ pass.current patch stored next =
        (.ok (observed (some next)), (next, stores status patch) :: stored) := by
  unfold patchStatusPreconditioned
  cases same : statusUnchanged pass.current patch with
  | true => exact .inl ⟨rfl, fun at_ is => ⟨(Except.ok.inj is).symm, rfl⟩⟩
  | false =>
      rw [if_neg Bool.false_ne_true]
      cases stands : pass.at_ with
      | none => exact .inl ⟨rfl, fun at_ is => by cases is⟩
      | some version =>
          cases stored with
          | nil => exact .inl ⟨rfl, fun at_ is => by cases is⟩
          | cons newest older =>
              obtain ⟨held, status⟩ := newest
              dsimp only [Versions.patchStatus]
              by_cases here : held = version
              · rw [if_pos here]
                exact .inr ⟨held, status, older, rfl, by rw [here], rfl, rfl⟩
              · rw [if_neg here]
                exact .inl ⟨rfl, fun at_ is => by cases is⟩

theorem Coherent.head {s : State} (c : Coherent s) {pass : Pass} (member : pass ∈ s.passes)
    {version : String} {status : Value} {older : Versions}
    (newest : s.stored = (version, status) :: older) (stands : pass.at_ = some version) :
    status = pass.expects := by
  have there := c.stands pass member version stands
  have once := c.once
  rw [newest] at there once
  rcases List.mem_cons.mp there with same | old
  · exact (Prod.mk.inj same).2.symm
  · exact absurd (List.mem_map_of_mem old) (List.nodup_cons.mp once).1

theorem Coherent.cons {s : State} (c : Coherent s) {next : String}
    (fresh : next ∉ s.stored.map Prod.fst) (status : Value) :
    Coherent ⟨(next, status) :: s.stored, s.passes⟩ :=
  ⟨List.nodup_cons.mpr ⟨fresh, c.once⟩, fun pass member version stands =>
    List.mem_cons_of_mem _ (c.stands pass member version stands)⟩

theorem Coherent.step {s s' : State} (c : Coherent s) (step : Step kind name s s') :
    Coherent s' := by
  cases step with
  | @begins version status handed =>
      refine ⟨c.once, fun pass member v stands => ?_⟩
      rcases List.mem_cons.mp member with rfl | old
      · rw [observed_eq_some stands, Pass.expects, List.foldl_nil, getD_asRead]
        exact handed
      · exact c.stands pass old v stands
  | other fresh status => exact c.cons fresh status
  | @writes before after pass next at_ stored among fresh patch answered =>
      have member : pass ∈ s.passes := among ▸ List.mem_append_right _ List.mem_cons_self
      have others : ∀ p ∈ before ++ pass.wrote patch at_ :: after,
          p = pass.wrote patch at_ ∨ p ∈ s.passes := by
        intro p listed
        rw [among]
        simp only [List.mem_append, List.mem_cons] at listed ⊢
        tauto
      rcases @write_cases kind name pass patch s.stored next with
        ⟨kept, unsent⟩ | ⟨version, status, older, newest, stands, sends, wrote⟩
      · rw [answered] at kept unsent
        dsimp only at kept
        subst kept
        obtain ⟨rfl, same⟩ := unsent _ rfl
        refine ⟨c.once, fun p listed v at_v => ?_⟩
        rcases others p listed with rfl | old
        · rw [pass.expects_wrote, if_pos same]
          exact c.stands pass member v at_v
        · exact c.stands p old v at_v
      · rw [answered] at wrote
        obtain ⟨is, appended⟩ := Prod.mk.inj wrote
        cases is
        subst appended
        have whole := c.cons fresh (stores status patch)
        refine ⟨whole.once, fun p listed v at_v => ?_⟩
        rcases others p listed with rfl | old
        · rw [pass.expects_wrote, if_neg (Bool.eq_false_iff.mp sends),
            c.head member newest stands, observed_eq_some at_v]
          exact List.mem_cons_self
        · exact whole.stands p old v at_v
  | @ends before after pass next among fresh patch =>
      have fewer : ∀ p ∈ before ++ after, p ∈ s.passes := by
        intro p listed
        rw [among]
        simp only [List.mem_append, List.mem_cons] at listed ⊢
        tauto
      rcases @write_cases kind name pass patch s.stored next with
        ⟨kept, -⟩ | ⟨version, status, older, -, -, -, wrote⟩
      · rw [kept]
        exact ⟨c.once, fun p listed => c.stands p (fewer p listed)⟩
      · rw [wrote]
        have whole := c.cons fresh (stores status patch)
        exact ⟨whole.once, fun p listed => whole.stands p (fewer p listed)⟩

theorem Reaches.coherent {s : State} (reached : Reaches kind name s) : Coherent s := by
  induction reached with
  | start version status =>
      exact ⟨List.pairwise_singleton _ version, fun pass member => absurd member List.not_mem_nil⟩
  | step _ step ih => exact ih.step step

/-- No status update is lost: however passes and other writers interleave, what a pass's write
stores is its patch merged onto what it was handed and had applied itself, so nothing was stored
in between; and a write that is not made onto that leaves everything as it was. -/
theorem no_status_update_is_lost {s : State} (reached : Reaches kind name s) {pass : Pass}
    (member : pass ∈ s.passes) (patch : Value) (next : String) :
    (patchStatusPreconditioned kind name pass.at_ pass.current patch s.stored next).2 = s.stored ∨
      ∃ version older, s.stored = (version, pass.expects) :: older ∧ pass.at_ = some version ∧
        patchStatusPreconditioned kind name pass.at_ pass.current patch s.stored next =
          (.ok (observed (some next)), (next, stores pass.expects patch) :: s.stored) := by
  rcases @write_cases kind name pass patch s.stored next with
    ⟨kept, -⟩ | ⟨version, status, older, newest, stands, -, wrote⟩
  · exact .inl kept
  · obtain rfl := reached.coherent.head member newest stands
    exact .inr ⟨version, older, newest, stands, wrote⟩

/-- Between a pass's read and its write, another writer stores the version `2`. -/
def overtaken : State :=
  ⟨[("2", .string "other"), ("1", .string "read")], [⟨some (.string "read"), some "1", []⟩]⟩

theorem overtaken_write_stores_nothing :
    (patchStatusPreconditioned "Backup" "b" (some "1") (some (.string "read"))
      (.object [("status", .string "stale")]) overtaken.stored "3").2 = overtaken.stored := by
  have reached : Reaches "Backup" "b" overtaken :=
    .step (.step (.start "1" (.string "read")) (.begins (List.mem_singleton.mpr rfl)))
      (.other (by decide) (.string "other"))
  refine (no_status_update_is_lost reached (List.mem_singleton.mpr rfl)
    (.object [("status", .string "stale")]) "3").resolve_right ?_
  rintro ⟨version, older, newest, stands, -⟩
  cases stands
  have heads : some "2" = some "1" := congrArg (fun l => (l.map Prod.fst).head?) newest
  exact absurd heads (by decide)

end Logweir.Conditions
