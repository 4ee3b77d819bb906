import Logweir.Library.DepthFirst
import Logweir.Schemas.Snapshot
import Mathlib.Data.List.Dedup

/-!
# The closure is complete and ordered

`logweir_core::schema_registry::closure`.  The subjects are the least set that holds a needed ID and
is closed under references; each is whole, and a version comes after what it follows.
-/

set_option autoImplicit false

namespace Logweir.SchemaRegistry

open Relation (TransGen)

/-- The subjects a restore needs: each that holds a needed ID, and each the snapshot holds that a
version of a needed one references. -/
inductive NeededSubject (versions : List SnapshotVersion) (needed : List UInt32) : String → Prop
  | holds {v : SnapshotVersion} (listed : v ∈ versions) (id : v.id ∈ needed) :
      NeededSubject versions needed v.subject
  | refers {v w : SnapshotVersion} {r : SchemaReference}
      (source : NeededSubject versions needed v.subject) (listed : v ∈ versions)
      (reference : r ∈ v.references) (held : w ∈ versions) (named : w.subject = r.subject) :
      NeededSubject versions needed r.subject

/-- The version references the other, or is a later one of its subject. -/
def Follows (versions : List SnapshotVersion) (v e : SnapshotVersion) : Prop :=
  e ∈ versions ∧ (e.subject = v.subject ∧ e.version < v.version ∨
    ∃ r ∈ v.references, e.key = (r.subject, r.version))

def walkAt (turns : Nat) (versions : List SnapshotVersion) (needed : List UInt32) :
    List String × List String :=
  let subjects := (versions.filter fun v => v.id ∈ needed).foldl
    (fun subjects v => insertSubject v.subject subjects) []
  (followSubject versions)^[turns] (subjects.reverse, subjects)

def closureAt (turns depth : Nat) (snapshot : Snapshot) (needed : List UInt32) :
    List SnapshotVersion :=
  (walkAt turns snapshot.versions needed).2.foldl
    (fun order subject => (bySubject snapshot.versions subject).foldl
      (visit snapshot.versions depth []) order) []

theorem closure_eq_closureAt (snapshot : Snapshot) (needed : List UInt32) :
    closure snapshot needed =
      closureAt snapshot.versions.length (snapshot.versions.length + 1) snapshot needed := rfl

section Subjects

variable {versions : List SnapshotVersion} {needed : List UInt32}

theorem ascending_insertSubject {s : String} : ∀ {subjects : List String},
    subjects.Pairwise (· < ·) → (insertSubject s subjects).Pairwise (· < ·) := by
  intro subjects
  induction subjects with
  | nil => exact fun _ => List.pairwise_singleton _ s
  | cons t rest ih =>
      intro ascending
      obtain ⟨first, rest_⟩ := List.pairwise_cons.mp ascending
      rw [insertSubject]
      split
      · rename_i before
        refine List.pairwise_cons.mpr ⟨fun x member => ?_, ascending⟩
        rcases List.mem_cons.mp member with rfl | later
        · exact before
        · exact before.trans (first x later)
      · rename_i after
        split
        · exact ascending
        · rename_i other
          refine List.pairwise_cons.mpr ⟨fun x member => ?_, ih rest_⟩
          rcases mem_insertSubject.mp member with rfl | later
          · exact lt_of_le_of_ne (le_of_not_gt after) (Ne.symm other)
          · exact first x later

theorem mem_foldl_insertSubject {x : String} : ∀ (l : List SnapshotVersion) (subjects : List String),
    x ∈ l.foldl (fun subjects v => insertSubject v.subject subjects) subjects ↔
      (∃ v ∈ l, v.subject = x) ∨ x ∈ subjects := by
  intro l
  induction l with
  | nil => simp
  | cons v l ih =>
      intro subjects
      rw [List.foldl_cons, ih, mem_insertSubject, List.exists_mem_cons_iff, @eq_comm _ x v.subject]
      exact or_left_comm.trans or_assoc.symm

theorem ascending_foldl_insertSubject : ∀ (l : List SnapshotVersion) {subjects : List String},
    subjects.Pairwise (· < ·) →
      (l.foldl (fun subjects v => insertSubject v.subject subjects) subjects).Pairwise (· < ·) := by
  intro l
  induction l with
  | nil => exact id
  | cons v l ih => exact fun ascending => ih (ascending_insertSubject ascending)

theorem holdsSubject_iff {subject : String} :
    holdsSubject versions subject = true ↔ ∃ w ∈ versions, w.subject = subject := by
  rw [holdsSubject, List.any_eq_true]
  simp only [decide_eq_true_eq]

def heldSubjects (versions : List SnapshotVersion) : List String :=
  (versions.map fun v => v.subject).dedup

theorem mem_heldSubjects {subject : String} :
    subject ∈ heldSubjects versions ↔ ∃ w ∈ versions, w.subject = subject := by
  rw [heldSubjects, List.mem_dedup, List.mem_map]

def remaining (versions : List SnapshotVersion) (walk : List String × List String) : Nat :=
  walk.1.length + DepthFirst.left id (heldSubjects versions) walk.2

theorem left_insertSubject {subject : String} {subjects : List String}
    (held : subject ∈ heldSubjects versions) (new : subject ∉ subjects) :
    DepthFirst.left id (heldSubjects versions) (insertSubject subject subjects) <
      DepthFirst.left id (heldSubjects versions) subjects := by
  have same : DepthFirst.left id (heldSubjects versions) (insertSubject subject subjects) =
      DepthFirst.left id (heldSubjects versions) (id subject :: subjects) := by
    unfold DepthFirst.left
    congr 1
    refine List.filter_congr fun x _ => ?_
    rw [decide_eq_decide, mem_insertSubject, List.mem_cons]
    rfl
  rw [same]
  exact DepthFirst.left_lt held new

/-- What following references adds: the held subjects they name, each new one to the frontier too. -/
structure Followed (versions : List SnapshotVersion) (refs : List SchemaReference)
    (walk walk' : List String × List String) : Prop where
  subjects : ∀ x, x ∈ walk'.2 ↔
    x ∈ walk.2 ∨ ∃ r ∈ refs, r.subject = x ∧ holdsSubject versions x = true
  frontier : ∀ x, x ∈ walk'.1 ↔ x ∈ walk.1 ∨ (x ∈ walk'.2 ∧ x ∉ walk.2)
  remaining : remaining versions walk' ≤ remaining versions walk

theorem followReferences_followed (versions : List SnapshotVersion) : ∀ (refs : List SchemaReference) (walk : List String × List String),
    Followed versions refs walk (followReferences versions refs walk) := by
  intro refs
  induction refs with
  | nil =>
      intro walk
      refine ⟨fun x => ?_, fun x => ?_, Nat.le_refl _⟩
      · exact ⟨.inl, fun either => either.resolve_right fun ⟨_, none_, _⟩ => by cases none_⟩
      · exact ⟨.inl, fun either => either.resolve_right fun both => both.2 both.1⟩
  | cons r refs ih =>
      intro walk
      have unfolded : followReferences versions (r :: refs) walk =
          followReferences versions refs
            (if holdsSubject versions r.subject && r.subject ∉ walk.2 then
              (r.subject :: walk.1, insertSubject r.subject walk.2) else walk) := rfl
      rw [unfolded]
      by_cases fresh : holdsSubject versions r.subject = true ∧ r.subject ∉ walk.2
      · have rest := ih (r.subject :: walk.1, insertSubject r.subject walk.2)
        rw [if_pos (by simpa using fresh)]
        refine ⟨fun x => ?_, fun x => ?_, ?_⟩
        · rw [rest.subjects, mem_insertSubject, List.exists_mem_cons_iff]
          constructor
          · rintro ((rfl | old) | new)
            · exact .inr (.inl ⟨rfl, fresh.1⟩)
            · exact .inl old
            · exact .inr (.inr new)
          · rintro (old | ⟨rfl, _⟩ | new)
            · exact .inl (.inr old)
            · exact .inl (.inl rfl)
            · exact .inr new
        · rw [rest.frontier, mem_insertSubject, List.mem_cons]
          constructor
          · rintro ((rfl | old) | ⟨here, new⟩)
            · exact .inr ⟨(rest.subjects _).mpr (.inl (mem_insertSubject.mpr (.inl rfl))), fresh.2⟩
            · exact .inl old
            · exact .inr ⟨here, fun old => new (.inr old)⟩
          · rintro (old | ⟨here, new⟩)
            · exact .inl (.inr old)
            · by_cases same : x = r.subject
              · exact .inl (.inl same)
              · exact .inr ⟨here, fun either => either.elim same new⟩
        · have fewer := left_insertSubject (mem_heldSubjects.mpr (holdsSubject_iff.mp fresh.1)) fresh.2
          have later := rest.remaining
          unfold SchemaRegistry.remaining at later ⊢
          dsimp only at later
          rw [List.length_cons] at later
          omega
      · have rest := ih walk
        rw [if_neg (by simpa using fresh)]
        refine ⟨fun x => ?_, rest.frontier, rest.remaining⟩
        rw [rest.subjects, List.exists_mem_cons_iff]
        constructor
        · exact Or.imp_right .inr
        · rintro (old | ⟨rfl, held⟩ | new)
          · exact .inl old
          · exact .inl (not_not.mp fun other => fresh ⟨held, other⟩)
          · exact .inr new

structure Walked (versions : List SnapshotVersion) (needed : List UInt32)
    (walk : List String × List String) : Prop where
  frontier : ∀ s ∈ walk.1, s ∈ walk.2
  sound : ∀ s ∈ walk.2, NeededSubject versions needed s
  holding : ∀ v ∈ versions, v.id ∈ needed → v.subject ∈ walk.2
  followed : ∀ v ∈ versions, v.subject ∈ walk.2 → v.subject ∉ walk.1 → ∀ r ∈ v.references,
    holdsSubject versions r.subject = true → r.subject ∈ walk.2

theorem walked_start : Walked versions needed (walkAt 0 versions needed) := by
  have member (s : String) : s ∈ (walkAt 0 versions needed).2 ↔
      ∃ v ∈ versions.filter fun v => v.id ∈ needed, v.subject = s :=
    (mem_foldl_insertSubject _ _).trans (or_iff_left List.not_mem_nil)
  have reversed (s : String) : s ∈ (walkAt 0 versions needed).1 ↔ s ∈ (walkAt 0 versions needed).2 :=
    List.mem_reverse
  refine ⟨fun s => (reversed s).mp, fun s there => ?_, fun v listed id => ?_, ?_⟩
  · obtain ⟨v, kept, rfl⟩ := (member s).mp there
    obtain ⟨listed, id⟩ := List.mem_filter.mp kept
    exact .holds listed (of_decide_eq_true id)
  · exact (member _).mpr ⟨v, List.mem_filter.mpr ⟨listed, decide_eq_true id⟩, rfl⟩
  · exact fun v _ there off => absurd ((reversed _).mpr there) off

theorem Walked.step {walk : List String × List String} (walked : Walked versions needed walk) :
    Walked versions needed (followSubject versions walk) := by
  obtain ⟨frontier, subjects⟩ := walk
  cases frontier with
  | nil => exact walked
  | cons subject frontier =>
      have here : subject ∈ subjects := walked.frontier subject List.mem_cons_self
      have step := followReferences_followed versions
        ((bySubject versions subject).flatMap SnapshotVersion.references) (frontier, subjects)
      change Walked versions needed (followReferences versions
        ((bySubject versions subject).flatMap SnapshotVersion.references) (frontier, subjects))
      generalize followReferences versions
        ((bySubject versions subject).flatMap SnapshotVersion.references) (frontier, subjects) =
          walk' at step ⊢
      have kept (s : String) (there : s ∈ subjects) : s ∈ walk'.2 :=
        (step.subjects s).mpr (.inl there)
      refine ⟨fun s there => ?_, fun s there => ?_, fun v listed id => ?_, ?_⟩
      · rcases (step.frontier s).mp there with old | ⟨new, _⟩
        · exact kept s (walked.frontier s (List.mem_cons_of_mem _ old))
        · exact new
      · rcases (step.subjects s).mp there with old | ⟨r, reference, rfl, held⟩
        · exact walked.sound s old
        · obtain ⟨v, own, stated⟩ := List.mem_flatMap.mp reference
          obtain ⟨listed, rfl⟩ := mem_bySubject.mp own
          obtain ⟨w, holds, named⟩ := holdsSubject_iff.mp held
          exact .refers (walked.sound _ here) listed stated holds named
      · exact kept _ (walked.holding v listed id)
      · intro v listed there off r reference held
        by_cases own : v.subject = subject
        · refine (step.subjects _).mpr (.inr ⟨r, List.mem_flatMap.mpr ⟨v, ?_, reference⟩, rfl, held⟩)
          exact mem_bySubject.mpr ⟨listed, own⟩
        · have old : v.subject ∈ subjects := by
            by_contra new
            exact off ((step.frontier _).mpr (.inr ⟨there, new⟩))
          have off' : v.subject ∉ subject :: frontier := fun on =>
            (List.mem_cons.mp on).elim own fun later => off ((step.frontier _).mpr (.inl later))
          exact kept _ (walked.followed v listed old off' r reference held)

theorem walkAt_succ (versions : List SnapshotVersion) (needed : List UInt32) (turns : Nat) :
    walkAt (turns + 1) versions needed =
      followSubject versions (walkAt turns versions needed) :=
  Function.iterate_succ_apply' _ _ _

theorem walked_walkAt (versions : List SnapshotVersion) (needed : List UInt32) (turns : Nat) :
    Walked versions needed (walkAt turns versions needed) := by
  induction turns with
  | zero => exact walked_start
  | succ turns ih => exact walkAt_succ versions needed turns ▸ ih.step

theorem remaining_followSubject (subject : String) (frontier subjects : List String) :
    remaining versions (followSubject versions (subject :: frontier, subjects)) <
      remaining versions (subject :: frontier, subjects) := by
  have step := (followReferences_followed versions
    ((bySubject versions subject).flatMap SnapshotVersion.references) (frontier, subjects)).remaining
  refine Nat.lt_of_le_of_lt step ?_
  unfold remaining
  dsimp only
  rw [List.length_cons]
  omega

theorem remaining_walkAt (versions : List SnapshotVersion) (needed : List UInt32) (turns : Nat) :
    (walkAt turns versions needed).1 = [] ∨
    remaining versions (walkAt turns versions needed) + turns ≤
      remaining versions (walkAt 0 versions needed) := by
  induction turns with
  | zero => exact .inr (Nat.le_refl _)
  | succ turns ih =>
      rw [walkAt_succ]
      rcases found : walkAt turns versions needed with ⟨frontier, subjects⟩
      rw [found] at ih
      cases frontier with
      | nil => exact .inl rfl
      | cons subject frontier =>
          have bound := ih.resolve_left (List.cons_ne_nil _ _)
          have fewer : remaining versions (followSubject versions (subject :: frontier, subjects)) <
              remaining versions (subject :: frontier, subjects) :=
            remaining_followSubject subject frontier subjects
          exact .inr (by omega)

theorem remaining_start (versions : List SnapshotVersion) (needed : List UInt32) :
    remaining versions (walkAt 0 versions needed) ≤ versions.length := by
  have ascending : (walkAt 0 versions needed).2.Pairwise (· < ·) :=
    ascending_foldl_insertSubject _ List.Pairwise.nil
  have once : (walkAt 0 versions needed).2.Nodup := ascending.imp fun less => ne_of_lt less
  have length : (walkAt 0 versions needed).1.length = (walkAt 0 versions needed).2.length :=
    List.length_reverse
  have distinct : ((walkAt 0 versions needed).2 ++ (heldSubjects versions).filter
      fun s => id s ∉ (walkAt 0 versions needed).2).Nodup := by
    refine List.nodup_append'.mpr ⟨once, (List.nodup_dedup _).filter _, fun s here there => ?_⟩
    exact of_decide_eq_true (List.mem_filter.mp there).2 here
  have inside : (walkAt 0 versions needed).2 ++ (heldSubjects versions).filter
      (fun s => id s ∉ (walkAt 0 versions needed).2) ⊆ heldSubjects versions := by
    intro s member
    rcases List.mem_append.mp member with here | there
    · obtain ⟨v, kept, rfl⟩ := ((mem_foldl_insertSubject _ _).trans
        (or_iff_left List.not_mem_nil)).mp here
      exact mem_heldSubjects.mpr ⟨v, (List.mem_filter.mp kept).1, rfl⟩
    · exact (List.mem_filter.mp there).1
  have size := (List.subperm_of_subset distinct inside).length_le
  have fewer : (heldSubjects versions).length ≤ versions.length :=
    (List.dedup_sublist _).length_le.trans (Nat.le_of_eq (List.length_map _))
  unfold remaining DepthFirst.left
  rw [length]
  rw [List.length_append] at size
  exact size.trans fewer

theorem frontier_empty (needed : List UInt32) {turns : Nat} (enough : versions.length ≤ turns) :
    (walkAt turns versions needed).1 = [] := by
  rcases remaining_walkAt versions needed turns with done_ | bound
  · exact done_
  · have start := remaining_start versions needed
    rw [← List.length_eq_zero_iff]
    unfold remaining at bound start
    omega

theorem walkAt_enough {turns : Nat} (enough : versions.length ≤ turns) :
    walkAt turns versions needed = walkAt versions.length versions needed := by
  induction turns, enough using Nat.le_induction with
  | base => rfl
  | succ turns enough ih =>
      have none_ := frontier_empty needed enough
      rw [walkAt_succ, followSubject, none_]
      exact ih

theorem mem_walkAt {turns : Nat} (enough : versions.length ≤ turns) {subject : String} :
    subject ∈ (walkAt turns versions needed).2 ↔ NeededSubject versions needed subject := by
  have walked := walked_walkAt versions needed turns
  refine ⟨walked.sound subject, fun needs => ?_⟩
  induction needs with
  | holds listed id => exact walked.holding _ listed id
  | refers source listed reference held named ih =>
      refine walked.followed _ listed ih ?_ _ reference (holdsSubject_iff.mpr ⟨_, held, named⟩)
      rw [frontier_empty needed enough]
      exact List.not_mem_nil

end Subjects

section Order

variable {versions : List SnapshotVersion} {needed : List UInt32}

theorem visit_eq : ∀ (depth : Nat) (visiting : List (String × UInt32)) (order : List SnapshotVersion)
    (v : SnapshotVersion), visit versions depth visiting order v =
      DepthFirst.visit SnapshotVersion.key (dependencies versions) depth visiting order v := by
  intro depth
  induction depth with
  | zero => exact fun _ _ _ => rfl
  | succ depth ih =>
      intro visiting order v
      have same : visit versions depth (v.key :: visiting) = DepthFirst.visit SnapshotVersion.key
          (dependencies versions) depth (v.key :: visiting) :=
        funext fun order => funext fun d => ih _ order d
      rw [visit, DepthFirst.visit, same]
      by_cases busy : v.key ∈ order.map SnapshotVersion.key ∨ v.key ∈ visiting
      · rw [if_pos busy, if_pos busy]
      · rw [if_neg busy, if_neg busy]

theorem eq_of_key (distinct : (versions.map SnapshotVersion.key).Nodup) {v w : SnapshotVersion}
    (listed : v ∈ versions) (listed' : w ∈ versions) (same : v.key = w.key) : v = w :=
  List.inj_on_of_nodup_map distinct listed listed' same

theorem mem_dependencies_iff (distinct : (versions.map SnapshotVersion.key).Nodup)
    {v e : SnapshotVersion} : e ∈ dependencies versions v ↔ Follows versions v e := by
  rw [dependencies, List.mem_append, List.mem_filter, mem_bySubject, List.mem_filterMap]
  constructor
  · rintro (⟨⟨listed, same⟩, less⟩ | ⟨r, reference, found⟩)
    · exact ⟨listed, .inl ⟨same, of_decide_eq_true less⟩⟩
    · obtain ⟨listed, same⟩ := mem_bySubject.mp (List.mem_of_find?_eq_some found)
      have version : e.version = r.version := by simpa using List.find?_some found
      exact ⟨listed, .inr ⟨r, reference, Prod.ext same version⟩⟩
  · rintro ⟨listed, ⟨same, less⟩ | ⟨r, reference, key⟩⟩
    · exact .inl ⟨⟨listed, same⟩, decide_eq_true less⟩
    · obtain ⟨subject, version⟩ := Prod.mk.inj key
      refine .inr ⟨r, reference, ?_⟩
      have some_ : ((bySubject versions r.subject).find? fun e => e.version = r.version).isSome :=
        List.find?_isSome.mpr ⟨e, mem_bySubject.mpr ⟨listed, subject⟩, decide_eq_true version⟩
      obtain ⟨w, found⟩ := Option.isSome_iff_exists.mp some_
      obtain ⟨listed', same⟩ := mem_bySubject.mp (List.mem_of_find?_eq_some found)
      have version' : w.version = r.version := by simpa using List.find?_some found
      have only : w = e := eq_of_key distinct listed' listed
        (Prod.ext (same.trans subject.symm) (version'.trans version.symm))
      exact only ▸ found

def neededVersions (versions : List SnapshotVersion) (needed : List UInt32) : List SnapshotVersion :=
  versions.filter fun v => v.subject ∈ (walkAt versions.length versions needed).2

theorem mem_neededVersions {v : SnapshotVersion} :
    v ∈ neededVersions versions needed ↔ v ∈ versions ∧ NeededSubject versions needed v.subject := by
  rw [neededVersions, List.mem_filter, decide_eq_true_eq, mem_walkAt (Nat.le_refl _)]

theorem needed_of_follows {v e : SnapshotVersion} (source : v ∈ neededVersions versions needed)
    (follows : Follows versions v e) : e ∈ neededVersions versions needed := by
  obtain ⟨listed, source⟩ := mem_neededVersions.mp source
  obtain ⟨listed', ⟨same, _⟩ | ⟨r, reference, key⟩⟩ := follows
  · exact mem_neededVersions.mpr ⟨listed', same ▸ source⟩
  · have same : e.subject = r.subject := (Prod.mk.inj key).1
    exact mem_neededVersions.mpr ⟨listed', same ▸ .refers source listed reference listed' same⟩

theorem closed_neededVersions (needed : List UInt32)
    (distinct : (versions.map SnapshotVersion.key).Nodup) :
    DepthFirst.Closed SnapshotVersion.key (dependencies versions)
      (neededVersions versions needed) where
  distinct := distinct.sublist (List.filter_sublist.map _)
  deps _ source _ dep := needed_of_follows source ((mem_dependencies_iff distinct).mp dep)

def tops (turns : Nat) (versions : List SnapshotVersion) (needed : List UInt32) :
    List SnapshotVersion :=
  (walkAt turns versions needed).2.flatMap (bySubject versions)

theorem mem_tops {turns : Nat} (enough : versions.length ≤ turns) {v : SnapshotVersion} :
    v ∈ tops turns versions needed ↔ v ∈ neededVersions versions needed := by
  rw [tops, List.mem_flatMap, mem_neededVersions]
  constructor
  · rintro ⟨subject, there, own⟩
    obtain ⟨listed, rfl⟩ := mem_bySubject.mp own
    exact ⟨listed, (mem_walkAt enough).mp there⟩
  · rintro ⟨listed, needs⟩
    exact ⟨v.subject, (mem_walkAt enough).mpr needs, mem_bySubject.mpr ⟨listed, rfl⟩⟩

theorem closureAt_eq (turns depth : Nat) (snapshot : Snapshot) (needed : List UInt32) :
    closureAt turns depth snapshot needed = (tops turns snapshot.versions needed).foldl
      (DepthFirst.visit SnapshotVersion.key (dependencies snapshot.versions) depth []) [] := by
  have same : visit snapshot.versions depth [] = DepthFirst.visit SnapshotVersion.key
      (dependencies snapshot.versions) depth [] :=
    funext fun order => funext fun v => visit_eq depth [] order v
  rw [closureAt, tops, List.foldl_flatMap, same]

theorem mem_closureAt {turns depth : Nat} {snapshot : Snapshot}
    (distinct : (snapshot.versions.map SnapshotVersion.key).Nodup)
    (enough : snapshot.versions.length ≤ turns) {v : SnapshotVersion} :
    v ∈ closureAt turns (depth + 1) snapshot needed ↔
      v ∈ neededVersions snapshot.versions needed := by
  have closed := closed_neededVersions needed distinct
  rw [closureAt_eq]
  have added : ∀ x, x ∈ (tops turns snapshot.versions needed).foldl (DepthFirst.visit
      SnapshotVersion.key (dependencies snapshot.versions) (depth + 1) []) [] →
        x ∈ neededVersions snapshot.versions needed := by
    intro x there
    have related := DepthFirst.foldl_related
      (R := fun a b => x ∈ b → x ∈ a ∨ x ∈ neededVersions snapshot.versions needed)
      (fun _ there => .inl there) (fun first second there => (second there).elim first .inr)
      (tops turns snapshot.versions needed) [] fun w top order =>
        DepthFirst.mem_of_mem_visit closed (depth + 1) [] w ((mem_tops enough).mp top) order
    exact (related there).resolve_left List.not_mem_nil
  refine ⟨added v, fun needs => ?_⟩
  obtain ⟨before, after, split_⟩ := List.append_of_mem ((mem_tops enough).mpr needs)
  have placed : v.key ∈ ((tops turns snapshot.versions needed).foldl (DepthFirst.visit
      SnapshotVersion.key (dependencies snapshot.versions) (depth + 1) []) []).map
        SnapshotVersion.key := by
    rw [split_, List.foldl_append, List.foldl_cons]
    have longer (order : List SnapshotVersion) : order <+: after.foldl (DepthFirst.visit
        SnapshotVersion.key (dependencies snapshot.versions) (depth + 1) []) order :=
      DepthFirst.foldl_related List.prefix_refl List.IsPrefix.trans after order fun w _ order =>
        DepthFirst.visit_prefix (depth + 1) [] w order
    exact ((longer _).map _).subset (DepthFirst.visit_placed List.not_mem_nil _)
  obtain ⟨w, there, same⟩ := List.mem_map.mp placed
  exact eq_of_key distinct (mem_neededVersions.mp (added w there)).1
    (mem_neededVersions.mp needs).1 same ▸ there

theorem closureAt_depth {turns depth depth' : Nat} {snapshot : Snapshot}
    (distinct : (snapshot.versions.map SnapshotVersion.key).Nodup)
    (enough : snapshot.versions.length ≤ turns) (deep : snapshot.versions.length < depth)
    (deep' : snapshot.versions.length < depth') :
    closureAt turns depth snapshot needed = closureAt turns depth' snapshot needed := by
  have closed := closed_neededVersions needed distinct
  have fewer : (neededVersions snapshot.versions needed).length ≤ snapshot.versions.length :=
    List.length_filter_le _ _
  have left : DepthFirst.left SnapshotVersion.key (neededVersions snapshot.versions needed) [] =
      (neededVersions snapshot.versions needed).length := DepthFirst.left_nil
  rw [closureAt_eq, closureAt_eq]
  refine List.foldl_ext _ _ _ fun order v top => ?_
  exact DepthFirst.visit_depth closed depth depth' [] v ((mem_tops enough).mp top)
    (left ▸ fewer.trans_lt deep) (left ▸ fewer.trans_lt deep') order

end Order

/-- The closure of a parsed snapshot: nothing is left to follow when its loop ends, every version of
the needed subjects is in it once, and no other; and with no cycle among them each comes after all it
follows. -/
theorem closure_complete_ordered {B : Bytes} {bytes : List UInt8} {sha256 : String}
    {snapshot : Snapshot} (parsed : Snapshot.parse B bytes sha256 = .ok snapshot)
    (needed : List UInt32) :
    (∀ turns depth, snapshot.versions.length ≤ turns → snapshot.versions.length < depth →
      (walkAt turns snapshot.versions needed).1 = [] ∧
        closureAt turns depth snapshot needed = closure snapshot needed) ∧
    ((closure snapshot needed).map SnapshotVersion.key).Nodup ∧
    (∀ v, v ∈ closure snapshot needed ↔
      v ∈ snapshot.versions ∧ NeededSubject snapshot.versions needed v.subject) ∧
    ((∀ v ∈ closure snapshot needed, ¬ TransGen (Follows snapshot.versions) v v) →
      ∀ before v after, closure snapshot needed = before ++ v :: after →
        ∀ e, Follows snapshot.versions v e → e ∈ before) := by
  have distinct := distinct_of_parse parsed
  have member (v : SnapshotVersion) : v ∈ closure snapshot needed ↔
      v ∈ neededVersions snapshot.versions needed := mem_closureAt distinct (Nat.le_refl _)
  have deps : DepthFirst.DependsOn (dependencies snapshot.versions) = Follows snapshot.versions := by
    funext v e
    exact propext (mem_dependencies_iff distinct)
  refine ⟨fun turns depth enough deep => ⟨frontier_empty needed enough, ?_⟩,
    closure_distinct snapshot needed, fun v => (member v).trans mem_neededVersions, ?_⟩
  · rw [closureAt_depth distinct enough deep (Nat.lt_succ_self _), closure_eq_closureAt]
    unfold closureAt
    rw [walkAt_enough enough]
  · intro acyclic
    have closed := closed_neededVersions needed distinct
    have fewer : (neededVersions snapshot.versions needed).length ≤ snapshot.versions.length :=
      List.length_filter_le _ _
    have left : DepthFirst.left SnapshotVersion.key (neededVersions snapshot.versions needed) [] =
        (neededVersions snapshot.versions needed).length := DepthFirst.left_nil
    have empty : DepthFirst.Good (dependencies snapshot.versions)
        (neededVersions snapshot.versions needed) [] :=
      ⟨fun x none_ => absurd none_ List.not_mem_nil, fun a x b same => by simp at same⟩
    have good : DepthFirst.Good (dependencies snapshot.versions)
        (neededVersions snapshot.versions needed)
        (closureAt snapshot.versions.length (snapshot.versions.length + 1) snapshot needed) := by
      rw [closureAt_eq]
      refine (DepthFirst.foldl_good _ _ empty fun v top order good => ?_).1
      exact DepthFirst.visit_good closed (fun v needs => (deps ▸ acyclic v ((member v).mpr needs)))
        _ [] v ((mem_tops (Nat.le_refl _)).mp top) (left ▸ Nat.lt_succ_of_le fewer)
        (fun u _ busy => absurd busy List.not_mem_nil) order good
    intro before v after same e follows
    exact good.ordered before v after same e ((mem_dependencies_iff distinct).mpr follows)

def chained : Snapshot where
  format := SNAPSHOT_FORMAT
  versions :=
    [⟨"orders-value", 1, 7, "AVRO", "", [], false⟩,
      ⟨"orders-value", 2, 8, "AVRO", "", [⟨"address", "address", 1⟩], false⟩,
      ⟨"address", 1, 5, "AVRO", "", [], false⟩]

def chainedBytes : Bytes where
  sha256Prefixed := fun _ => "sha256:00"
  fromSlice := fun _ => .ok chained

theorem chained_parsed : Snapshot.parse chainedBytes [] "sha256:00" = .ok chained := rfl

theorem chained_closure_nodup :
    ((closure chained [7]).map SnapshotVersion.key).Nodup :=
  (closure_complete_ordered chained_parsed [7]).2.1

end Logweir.SchemaRegistry
