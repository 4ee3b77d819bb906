import Logweir.Switchover.Accepted
import Mathlib.Data.List.Induction
import Mathlib.Data.List.Pairwise

/-!
# Generated plans

`logweir switchover plan` writes a forward plan from a mapping document, and the runner checks a
plan against the document it names.  The generator walks a group's entries, the checker looks each
planned position up among them; where no two entries land on one partition they agree.
-/

set_option autoImplicit false

namespace Logweir.Switchover

open Logweir.Text Logweir.Results Logweir.SortedMaps
open Logweir.PositionsMapping (MappingDocument MappingEntry GroupMapping)

def mapped (e : MappingEntry) : Bool := decide (e.class_ ≠ PositionsMapping.unavailable) && e.targetOffset.isSome

def checkPosition (source topic : String) (m : GroupMapping) (t : PlanTopic) (position : Nat × Int) :
    Except String Unit :=
  match (m.entries.find? fun e => e.targetTopic = some topic ∧ e.partition = position.1).filter mapped with
  | none => .error s!"group {debug source} {topic}:{position.1} is not a mapped position of the mapping"
  | some e => do
      refuseIf (e.targetOffset ≠ some position.2)
        (s!"group {debug source} {topic}:{position.1} plans {position.2}, the mapping maps " ++
          s!"{e.targetOffset.getD 0}")
      refuseIf (decide (e.class_ = PositionsMapping.approximate) ≠ t.approximate.contains position.1)
        (s!"group {debug source} {topic}:{position.1}: the plan's approximate list does not say what " ++
          s!"the mapping's class says ({e.class_})")

def checkMappedGroup (mapping : MappingDocument) (g : PlanGroup) : Except String Unit :=
  match mapping.groups[g.source]? with
  | none => .error s!"group {debug g.source} is not in the mapping"
  | some m => g.topics.entries.forM fun topic =>
      topic.2.offsets.entries.forM (checkPosition g.source topic.1 m topic.2)

def checkAgainstMapping (plan : SwitchoverPlan) (mapping : MappingDocument) : Except String Unit :=
  plan.groups.forM (checkMappedGroup mapping)

structure GroupChoice where
  source : String
  target : String
deriving DecidableEq

def landing (e : MappingEntry) : Option (String × Int) :=
  match e.targetTopic, e.targetOffset with
  | some t, some o => if mapped e then some (t, o) else none
  | _, _ => none

def PlanTopic.blank : PlanTopic := { offsets := SortedMap.empty, expected := .word }

def PlanTopic.plan (pt : PlanTopic) (e : MappingEntry) (o : Int) : PlanTopic :=
  { pt with
    offsets := pt.offsets.insert e.partition o
    approximate :=
      if e.class_ = PositionsMapping.approximate then pt.approximate ++ [e.partition]
      else pt.approximate }

def planEntry (topics : SortedMap String PlanTopic) (e : MappingEntry) : SortedMap String PlanTopic :=
  match landing e with
  | some (t, o) => topics.insert t (((topics.get? t).getD PlanTopic.blank).plan e o)
  | none => topics

def planTopics (entries : List MappingEntry) : SortedMap String PlanTopic :=
  entries.foldl planEntry SortedMap.empty

def noteEntry (source : String) (e : MappingEntry) : List String :=
  match landing e with
  | some (t, _) =>
      if e.class_ = PositionsMapping.approximate then
        [s!"group {debug source} {t}:{e.partition}: approximate, {e.skipped.getD 0} archived " ++
          "record(s) the restore excluded are skipped"]
      else []
  | none =>
      let why := e.reason.getD "-"
      [s!"group {debug source} {e.topic}:{e.partition}: not planned, unavailable ({why})"]

def noteEntries (source : String) (m : GroupMapping) : List String :=
  m.entries.flatMap (noteEntry source) ++
    (m.reason.map fun r => s!"group {debug source}: not planned, {r}").toList

def noteActive (source : String) (m : GroupMapping) : List String :=
  if m.activeAtCapture then
    [s!"group {debug source} had members when its positions were captured: they may have moved " ++
      "after, so the target can re-deliver records it had already read"]
  else []

def planChoice (mapping : MappingDocument) (explicit : Bool) (acc : List PlanGroup × List String)
    (c : GroupChoice) : Except String (List PlanGroup × List String) :=
  match mapping.groups[c.source]? with
  | none => .error s!"group {debug c.source} is not in the mapping"
  | some m =>
      let topics := planTopics m.entries
      let notes := acc.2 ++ noteEntries c.source m
      if topics.isEmpty then
        if explicit then .error s!"group {debug c.source} has no mapped position to apply"
        else .ok (acc.1, notes)
      else
        .ok (acc.1 ++ [{ source := c.source, target := c.target, topics }],
          notes ++ noteActive c.source m)

def everyGroup (mapping : MappingDocument) : List GroupChoice :=
  (mapping.groups.toList.filter fun e => e.2.entries.any mapped).map fun e =>
    { source := e.1, target := e.1 }

def choices (mapping : MappingDocument) (chosen : List GroupChoice) : List GroupChoice :=
  if chosen.isEmpty then everyGroup mapping else chosen

def planFromMapping (mapping : MappingDocument) (restore : RestoreRef) (chosen : List GroupChoice) :
    Except String (SwitchoverPlan × List String) := do
  let made ← (choices mapping chosen).foldlM (planChoice mapping !chosen.isEmpty) ([], [])
  let plan : SwitchoverPlan := { formatVersion := PLAN_FORMAT_VERSION, restore, groups := made.1 }
  validate plan
  pure (plan, made.2)

/-- No two entries land on one partition of one restored topic. -/
def Distinct (entries : List MappingEntry) : Prop :=
  entries.Pairwise fun a b => ∀ t, a.targetTopic = some t → b.targetTopic = some t →
    a.partition ≠ b.partition

def approximates (entries : List MappingEntry) (topic : String) : List MappingEntry :=
  entries.filter fun e =>
    e.targetTopic = some topic ∧ mapped e = true ∧ e.class_ = PositionsMapping.approximate

/-- The topic plans the entries that land on it, and nothing else. -/
structure Plans (entries : List MappingEntry) (topic : String) (pt : PlanTopic) : Prop where
  offsets : ∀ position, position ∈ pt.offsets.entries ↔
    ∃ e ∈ entries, landing e = some (topic, position.2) ∧ e.partition = position.1
  approximate : pt.approximate = (approximates entries topic).map MappingEntry.partition
  expected : pt.expected = .word

section

variable {entries : List MappingEntry} {e e' : MappingEntry} {t source : String} {o : Int}
  {pt : PlanTopic} {topics : SortedMap String PlanTopic}

theorem landing_eq_some : landing e = some (t, o) ↔
    e.targetTopic = some t ∧ e.targetOffset = some o ∧ mapped e = true := by
  unfold landing
  split
  · rename_i topic offset named placed
    rw [named, placed]
    split_ifs with holds
    · simp [holds]
    · simp [holds]
  · rename_i other
    constructor
    · intro same
      cases same
    · rintro ⟨named, placed, -⟩
      exact (other t o named placed).elim

theorem mapped_eq_true :
    mapped e = true ↔ e.class_ ≠ PositionsMapping.unavailable ∧ ∃ o, e.targetOffset = some o := by
  simp [mapped, Option.isSome_iff_exists]

theorem lands_iff : (∃ o, landing e = some (t, o)) ↔ e.targetTopic = some t ∧ mapped e = true := by
  simp only [landing_eq_some]
  constructor
  · rintro ⟨o, named, -, holds⟩
    exact ⟨named, holds⟩
  · rintro ⟨named, holds⟩
    obtain ⟨-, o, placed⟩ := mapped_eq_true.mp holds
    exact ⟨o, named, placed, holds⟩

theorem Distinct.eq (distinct : Distinct entries) (member : e ∈ entries) (member' : e' ∈ entries)
    (named : e.targetTopic = some t) (named' : e'.targetTopic = some t)
    (same : e.partition = e'.partition) : e = e' := by
  by_contra apart
  have symm : Std.Symm fun a b : MappingEntry => ∀ t, a.targetTopic = some t →
      b.targetTopic = some t → a.partition ≠ b.partition :=
    ⟨fun a b differs t first second => (differs t second first).symm⟩
  exact distinct.forall member member' apart t named named' same

theorem blank_plans : Plans [] t PlanTopic.blank :=
  ⟨fun position => by simp [PlanTopic.blank, SortedMap.empty], rfl, rfl⟩

theorem Plans.keep (plans : Plans entries t pt) (elsewhere : ∀ o, landing e ≠ some (t, o)) :
    Plans (entries ++ [e]) t pt := by
  have other : ¬ (e.targetTopic = some t ∧ mapped e = true ∧
      e.class_ = PositionsMapping.approximate) := by
    rintro ⟨named, holds, -⟩
    obtain ⟨o, landed⟩ := lands_iff.mpr ⟨named, holds⟩
    exact elsewhere o landed
  refine ⟨fun position => ?_, ?_, plans.expected⟩
  · rw [plans.offsets]
    simp only [List.mem_append, List.mem_singleton, or_and_right, exists_or, exists_eq_left,
      elsewhere, false_and, or_false]
  · rw [plans.approximate]
    simp [approximates, List.filter_append, other]

theorem Plans.plan (plans : Plans entries t pt) (distinct : Distinct (entries ++ [e]))
    (landed : landing e = some (t, o)) : Plans (entries ++ [e]) t (pt.plan e o) := by
  refine ⟨fun position => ?_, ?_, plans.expected⟩
  · obtain ⟨p, offset⟩ := position
    simp only [PlanTopic.plan, SortedMap.mem_insert, plans.offsets, List.mem_append,
      List.mem_singleton, or_and_right, exists_or, exists_eq_left, landed, Prod.mk.injEq,
      Option.some.injEq, true_and]
    constructor
    · rintro (⟨rfl, rfl⟩ | ⟨⟨e', member, landed', here⟩, -⟩)
      · exact .inr ⟨rfl, rfl⟩
      · exact .inl ⟨e', member, landed', here⟩
    · rintro (⟨e', member, landed', here⟩ | ⟨rfl, rfl⟩)
      · refine .inr ⟨⟨e', member, landed', here⟩, ?_⟩
        have apart := (List.pairwise_append.mp distinct).2.2 e' member e (List.mem_singleton_self e)
        exact here ▸ apart t (landing_eq_some.mp landed').1 (landing_eq_some.mp landed).1
      · exact .inl ⟨rfl, rfl⟩
  · unfold PlanTopic.plan approximates
    rw [List.filter_append, List.map_append, plans.approximate]
    obtain ⟨named, holds⟩ := lands_iff.mp ⟨o, landed⟩
    by_cases near : e.class_ = PositionsMapping.approximate
    · simp [approximates, named, holds, near]
    · simp [approximates, near]

theorem plans_foldl (distinct : Distinct entries) (t : String) :
    Plans entries t (((planTopics entries).get? t).getD PlanTopic.blank) := by
  induction entries using List.reverseRecOn with
  | nil => exact blank_plans
  | append_singleton entries e ih =>
      have before := ih (List.pairwise_append.mp distinct).1
      unfold planTopics at before ⊢
      rw [List.foldl_concat]
      generalize entries.foldl planEntry SortedMap.empty = topics at before
      unfold planEntry
      split
      · rename_i topic o landed
        by_cases here : topic = t
        · subst here
          rw [SortedMap.get?_insert_self]
          exact before.plan distinct landed
        · rw [SortedMap.get?_insert_ne (Ne.symm here)]
          refine before.keep fun o' landed' => here ?_
          exact congrArg Prod.fst (Option.some.inj (landed.symm.trans landed'))
      · rename_i unplanned
        refine before.keep fun o landed => ?_
        rw [unplanned] at landed
        cases landed

theorem plans_planTopics (distinct : Distinct entries) (member : (t, pt) ∈ (planTopics entries).entries) :
    Plans entries t pt := by
  have plans := plans_foldl distinct t
  rwa [SortedMap.get?_eq_some.mpr member] at plans

theorem planned_of_landing (distinct : Distinct entries) (member : e ∈ entries)
    (landed : landing e = some (t, o)) :
    ∃ pt, (planTopics entries).get? t = some pt ∧ pt.offsets.get? e.partition = some o := by
  have plans := plans_foldl distinct t
  have there := (plans.offsets (e.partition, o)).mpr ⟨e, member, landed, rfl⟩
  cases found : (planTopics entries).get? t with
  | some pt =>
      rw [found] at there
      exact ⟨pt, rfl, SortedMap.get?_eq_some.mpr there⟩
  | none =>
      rw [found] at there
      cases there

theorem find?_entry (distinct : Distinct entries) (member : e ∈ entries) (named : e.targetTopic = some t) :
    (entries.find? fun e' => e'.targetTopic = some t ∧ e'.partition = e.partition) = some e := by
  cases found : entries.find? fun e' => e'.targetTopic = some t ∧ e'.partition = e.partition with
  | none =>
      have missed := List.find?_eq_none.mp found e member
      simp [named] at missed
  | some e' =>
      have here := List.find?_some found
      obtain ⟨named', same⟩ := of_decide_eq_true here
      rw [distinct.eq (List.mem_of_find?_eq_some found) member named' named same]

theorem contains_approximate (distinct : Distinct entries) (plans : Plans entries t pt)
    (member : e ∈ entries) (landed : landing e = some (t, o)) :
    decide (e.class_ = PositionsMapping.approximate) = pt.approximate.contains e.partition := by
  obtain ⟨named, holds⟩ := lands_iff.mp ⟨o, landed⟩
  rw [plans.approximate, Bool.eq_iff_iff, decide_eq_true_iff, List.contains_iff_mem]
  simp only [approximates, List.mem_map, List.mem_filter, decide_eq_true_iff]
  constructor
  · exact fun near => ⟨e, ⟨member, named, holds, near⟩, rfl⟩
  · rintro ⟨e', ⟨member', named', -, near⟩, same⟩
    rwa [distinct.eq member' member named' named same] at near

theorem checkPosition_planned {m : GroupMapping} (distinct : Distinct m.entries)
    (plans : Plans m.entries t pt) {position : Nat × Int} (member : position ∈ pt.offsets.entries) :
    checkPosition source t m pt position = .ok () := by
  obtain ⟨e, member', landed, here⟩ := (plans.offsets position).mp member
  obtain ⟨named, placed, holds⟩ := landing_eq_some.mp landed
  have found := find?_entry distinct member' named
  rw [here] at found
  unfold checkPosition
  rw [found, Option.filter_some_pos holds]
  refine seq_eq_ok.mpr ⟨refuseIf_eq_ok.mpr (not_not.mpr placed), refuseIf_eq_ok.mpr (not_not.mpr ?_)⟩
  rw [← here]
  exact contains_approximate distinct plans member' landed

variable {mapping : MappingDocument} {explicit : Bool} {c : GroupChoice} {g : PlanGroup}
  {acc made : List PlanGroup × List String}

/-- The group the generator makes of a choice. -/
def Makes (mapping : MappingDocument) (c : GroupChoice) (g : PlanGroup) : Prop :=
  ∃ m, mapping.groups[c.source]? = some m ∧ (planTopics m.entries).isEmpty = false ∧
    g = { source := c.source, target := c.target, topics := planTopics m.entries }

theorem mem_planChoice (ran : planChoice mapping explicit acc c = .ok made) :
    (∃ m, mapping.groups[c.source]? = some m) ∧
      ∀ g, g ∈ made.1 ↔ g ∈ acc.1 ∨ Makes mapping c g := by
  unfold planChoice at ran
  cases found : mapping.groups[c.source]? with
  | none => simp [found] at ran
  | some m =>
      refine ⟨⟨m, rfl⟩, fun g => ?_⟩
      have makes : Makes mapping c g ↔ (planTopics m.entries).isEmpty = false ∧
          g = { source := c.source, target := c.target, topics := planTopics m.entries } := by
        simp [Makes, found]
      simp only [found] at ran
      rw [makes]
      split_ifs at ran with empty
      · cases ran
        simp [empty]
      · cases ran
        simp [empty]

theorem mem_planChoices {cs : List GroupChoice}
    (ran : cs.foldlM (planChoice mapping explicit) acc = .ok made) :
    (∀ c ∈ cs, ∃ m, mapping.groups[c.source]? = some m) ∧
      ∀ g, g ∈ made.1 ↔ g ∈ acc.1 ∨ ∃ c ∈ cs, Makes mapping c g := by
  induction cs generalizing acc with
  | nil =>
      cases ran
      simp
  | cons c cs ih =>
      rw [List.foldlM_cons] at ran
      obtain ⟨next, first, rest⟩ := bind_eq_ok.mp ran
      obtain ⟨known, one⟩ := mem_planChoice first
      obtain ⟨known', more⟩ := ih rest
      refine ⟨List.forall_mem_cons.mpr ⟨known, known'⟩, fun g => ?_⟩
      rw [more, one, or_assoc]
      simp only [List.mem_cons, or_and_right, exists_or, exists_eq_left]

/-- A group that is chosen: named, or where none is, mapped. -/
def Chosen (mapping : MappingDocument) (chosen : List GroupChoice) (c : GroupChoice) : Prop :=
  if chosen = [] then
    c.source = c.target ∧ ∃ m, mapping.groups[c.source]? = some m ∧ ∃ e ∈ m.entries, mapped e = true
  else c ∈ chosen

theorem mem_choices {chosen : List GroupChoice} :
    c ∈ choices mapping chosen ↔ Chosen mapping chosen c := by
  unfold choices Chosen
  simp only [List.isEmpty_iff]
  split_ifs
  · simp only [everyGroup, List.mem_map, List.mem_filter, List.any_eq_true, Prod.exists,
      Std.ExtTreeMap.mem_toList_iff_getElem?_eq_some]
    constructor
    · rintro ⟨source, m, ⟨found, some_⟩, rfl⟩
      exact ⟨rfl, m, found, some_⟩
    · obtain ⟨source, target⟩ := c
      rintro ⟨same, m, found, some_⟩
      cases same
      exact ⟨source, m, ⟨found, some_⟩, rfl⟩
  · exact Iff.rfl

structure DistinctMapping where
  document : MappingDocument
  distinct : ∀ (source : String) (m : GroupMapping), document.groups[source]? = some m →
    Distinct m.entries

def plannedAt (g : PlanGroup) (topic : String) (partition : Nat) : Option Int :=
  (g.topics.get? topic).bind fun pt => pt.offsets.get? partition

/-- The plan passes both checks, plans what the mapping maps and says what is approximate. -/
structure Sound (mapping : MappingDocument) (chosen : List GroupChoice) (plan : SwitchoverPlan) :
    Prop where
  valid : validate plan = .ok ()
  agrees : checkAgainstMapping plan mapping = .ok ()
  planned : ∀ c, Chosen mapping chosen c → ∃ m, mapping.groups[c.source]? = some m ∧
    ∀ e ∈ m.entries, mapped e = true → ∀ topic, e.targetTopic = some topic →
      ∃ g ∈ plan.groups, g.source = c.source ∧ g.target = c.target ∧
        plannedAt g topic e.partition = e.targetOffset
  leftOut : ∀ g ∈ plan.groups, ∀ m, mapping.groups[g.source]? = some m → ∀ e ∈ m.entries,
    e.class_ = PositionsMapping.unavailable → ∀ topic, e.targetTopic = some topic →
      plannedAt g topic e.partition = none
  approximate : ∀ g ∈ plan.groups, ∀ m, mapping.groups[g.source]? = some m →
    ∀ topic ∈ g.topics.entries,
      topic.2.approximate = (approximates m.entries topic.1).map MappingEntry.partition

/-- Whatever plan was made, it is sound. -/
def SoundWhenMade (mapping : MappingDocument) (chosen : List GroupChoice) :
    Except String (SwitchoverPlan × List String) → Prop
  | .ok made => Sound mapping chosen made.1
  | .error _ => True

theorem landing_of_plannedAt {m : GroupMapping} {p : Nat} (distinct : Distinct m.entries)
    (made : g.topics = planTopics m.entries) (found : plannedAt g t p = some o) :
    ∃ e ∈ m.entries, landing e = some (t, o) ∧ e.partition = p := by
  obtain ⟨pt, there, at_⟩ := Option.bind_eq_some_iff.mp found
  rw [made] at there
  have plans := plans_planTopics distinct (SortedMap.get?_eq_some.mp there)
  exact (plans.offsets (p, o)).mp (SortedMap.get?_eq_some.mp at_)

theorem checkMappedGroup_made {m : GroupMapping} (distinct : Distinct m.entries)
    (known : mapping.groups[g.source]? = some m) (made : g.topics = planTopics m.entries) :
    checkMappedGroup mapping g = .ok () := by
  unfold checkMappedGroup
  rw [known]
  refine forM_ok _ fun topic member => forM_ok _ fun position planned => ?_
  rw [made] at member
  exact checkPosition_planned distinct (plans_planTopics distinct member) planned

/-- The generator only writes plans that both checks accept. -/
theorem planFromMapping_sound (mapping : DistinctMapping) (restore : RestoreRef)
    (chosen : List GroupChoice) :
    SoundWhenMade mapping.document chosen (planFromMapping mapping.document restore chosen) := by
  cases ran : planFromMapping mapping.document restore chosen with
  | error e => trivial
  | ok made =>
      obtain ⟨walked, walk, rest⟩ := bind_eq_ok.mp ran
      obtain ⟨valid, same⟩ := seq_eq_ok.mp rest
      cases same
      obtain ⟨known, members⟩ := mem_planChoices walk
      have made : ∀ g ∈ walked.1, ∃ m, mapping.document.groups[g.source]? = some m ∧
          g.topics = planTopics m.entries := by
        intro g member
        obtain ⟨c, -, m, found, -, rfl⟩ := ((members g).mp member).resolve_left (by simp)
        exact ⟨m, found, rfl⟩
      refine ⟨valid, forM_ok _ fun g member => ?_, fun c choice => ?_, ?_, ?_⟩
      · obtain ⟨m, found, topics⟩ := made g member
        exact checkMappedGroup_made (mapping.distinct _ m found) found topics
      · have choice := mem_choices.mpr choice
        obtain ⟨m, found⟩ := known c choice
        refine ⟨m, found, fun e member holds topic named => ?_⟩
        obtain ⟨o, landed⟩ := lands_iff.mpr ⟨named, holds⟩
        obtain ⟨pt, there, at_⟩ := planned_of_landing (mapping.distinct _ m found) member landed
        have some_ : (planTopics m.entries).isEmpty = false := by
          rw [SortedMap.isEmpty, List.isEmpty_eq_false_iff_exists_mem]
          exact ⟨_, SortedMap.get?_eq_some.mp there⟩
        refine ⟨_, (members _).mpr (.inr ⟨c, choice, m, found, some_, rfl⟩), rfl, rfl, ?_⟩
        rw [plannedAt, there, Option.bind_some, at_]
        exact (landing_eq_some.mp landed).2.1.symm
      · intro g member m found e member' class_ topic named
        obtain ⟨m', found', topics⟩ := made g member
        cases found.symm.trans found'
        have distinct := mapping.distinct _ m found
        rw [Option.eq_none_iff_forall_ne_some]
        intro o planned
        obtain ⟨e', member'', landed, here⟩ := landing_of_plannedAt distinct topics planned
        obtain ⟨named', -, holds⟩ := landing_eq_some.mp landed
        cases distinct.eq member'' member' named' named here
        exact (mapped_eq_true.mp holds).1 class_
      · intro g member m found topic planned
        obtain ⟨m', found', topics⟩ := made g member
        cases found.symm.trans found'
        rw [topics] at planned
        exact (plans_planTopics (mapping.distinct _ m found) planned).approximate

end

def unnamedGroup : GroupMapping where
  groupType := none
  activeAtCapture := false
  reason := none
  entries := [⟨"orders", 0, some 20, some "restored-orders", "exact", some 20, none, none⟩,
    ⟨"orders", 1, some 30, none, "exact", some 30, none, none⟩]
  noCommittedPosition := 0

def unnamedMapping : MappingDocument where
  formatVersion := "1.0.0"
  runId := "run-0"
  pointId := "point-0"
  positionsSha256 := ""
  rule := PositionsMapping.rule
  groups := Std.ExtTreeMap.insert ∅ "orders" unnamedGroup

theorem unnamedMapping_distinct {source : String} {m : GroupMapping}
    (found : unnamedMapping.groups[source]? = some m) : Distinct m.entries := by
  simp only [unnamedMapping, Std.ExtTreeMap.getElem?_insert, Std.ExtTreeMap.getElem?_empty] at found
  split_ifs at found
  · cases found
    simp [Distinct, unnamedGroup]

def unnamedDigest : String := "sha256:" ++ String.ofList (List.replicate 64 '0')

def unnamedRestore : RestoreRef := ⟨"nightly", "6f1c", unnamedDigest, unnamedDigest, unnamedDigest⟩

def unnamedPlan : SwitchoverPlan where
  formatVersion := PLAN_FORMAT_VERSION
  restore := unnamedRestore
  groups := [⟨"orders", "orders", planTopics unnamedGroup.entries⟩]

theorem planFromMapping_unnamed :
    planFromMapping unnamedMapping unnamedRestore [⟨"orders", "orders"⟩] =
      .ok (unnamedPlan, noteEntries "orders" unnamedGroup) := by
  have found : unnamedMapping.groups["orders"]? = some unnamedGroup :=
    Std.ExtTreeMap.getElem?_insert_self
  have walk : planChoice unnamedMapping true ([], []) ⟨"orders", "orders"⟩ =
      .ok (unnamedPlan.groups, noteEntries "orders" unnamedGroup) := by
    unfold planChoice
    rw [found]
    rfl
  have valid : validate unnamedPlan = .ok () := rfl
  have chosen : choices unnamedMapping [⟨"orders", "orders"⟩] = [⟨"orders", "orders"⟩] := rfl
  unfold planFromMapping
  rw [chosen, List.foldlM_cons]
  exact bind_eq_ok.mpr ⟨_, bind_eq_ok.mpr ⟨_, walk, rfl⟩, seq_eq_ok.mpr ⟨valid, rfl⟩⟩

/-- An entry that is mapped, and whose restored topic is not named, is not planned. -/
theorem planFromMapping_leaves_unnamed : ¬ ∀ (mapping : DistinctMapping) (restore : RestoreRef)
    (chosen : List GroupChoice) (plan : SwitchoverPlan) (notes : List String),
    planFromMapping mapping.document restore chosen = .ok (plan, notes) →
      ∀ c, Chosen mapping.document chosen c → ∀ m, mapping.document.groups[c.source]? = some m →
        ∀ e ∈ m.entries, mapped e = true →
          ∃ g ∈ plan.groups, ∃ topic, plannedAt g topic e.partition = e.targetOffset := by
  intro always
  obtain ⟨g, member, topic, planned⟩ := always ⟨unnamedMapping, fun _ _ => unnamedMapping_distinct⟩
    unnamedRestore _ _ _ planFromMapping_unnamed ⟨"orders", "orders"⟩
    (by simp [Chosen]) unnamedGroup Std.ExtTreeMap.getElem?_insert_self
    ⟨"orders", 1, some 30, none, "exact", some 30, none, none⟩ (by simp [unnamedGroup]) rfl
  cases List.mem_singleton.mp member
  obtain ⟨pt, there, at_⟩ := Option.bind_eq_some_iff.mp planned
  have only := SortedMap.get?_eq_some.mp there
  cases List.mem_singleton.mp only
  cases at_

end Logweir.Switchover
