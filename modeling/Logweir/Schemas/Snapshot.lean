import Mathlib.Data.List.Sort
import Mathlib.Data.String.Basic
import Mathlib.Data.List.Nodup
import Logweir.Library.Fields

/-!
# The schema snapshot and its closure

`logweir_core::schema_registry`: what a backup keeps of the source's registry, and the part
of it that a restore imports.  The closure of a set of IDs is whole subjects, in an order in
which a version follows what it references and the earlier versions of its subject.
-/

set_option autoImplicit false

namespace Logweir.SchemaRegistry

open Logweir.Text

structure SchemaReference where
  name : String
  subject : String
  version : UInt32
deriving DecidableEq

structure Content where
  schemaType : String
  schema : String
  references : List SchemaReference
deriving DecidableEq

structure SnapshotVersion where
  subject : String
  version : UInt32
  id : UInt32
  schemaType : String
  schema : String
  references : List SchemaReference
  deleted : Bool
deriving DecidableEq

def SnapshotVersion.content (v : SnapshotVersion) : Content :=
  ⟨v.schemaType, v.schema, v.references⟩

def SnapshotVersion.key (v : SnapshotVersion) : String × UInt32 := (v.subject, v.version)

structure Snapshot where
  format : Nat
  versions : List SnapshotVersion
deriving DecidableEq

def SNAPSHOT_FORMAT : Nat := 1
def SNAPSHOT_INVALID : String := "SchemaSnapshotInvalid"

structure Bytes where
  sha256Prefixed : List UInt8 → String
  fromSlice : List UInt8 → Except String Snapshot

def repeated : List (String × UInt32) → List SnapshotVersion → Option SnapshotVersion
  | _, [] => none
  | seen, v :: versions => if v.key ∈ seen then some v else repeated (v.key :: seen) versions

def Snapshot.parse (B : Bytes) (bytes : List UInt8) (sha256 : String) : Except String Snapshot :=
  if B.sha256Prefixed bytes ≠ sha256 then
    .error (SNAPSHOT_INVALID ++ ": the schema snapshot is " ++ B.sha256Prefixed bytes ++
      " but the receipt names " ++ sha256 ++ "; it is not the snapshot the backup signed")
  else
    match B.fromSlice bytes with
    | .error e => .error (SNAPSHOT_INVALID ++ ": the schema snapshot does not parse: " ++ e)
    | .ok snapshot =>
        if snapshot.format ≠ SNAPSHOT_FORMAT then
          .error (SNAPSHOT_INVALID ++ ": the schema snapshot is format " ++
            toString snapshot.format ++ "; this build reads format " ++ toString SNAPSHOT_FORMAT)
        else
          match repeated [] snapshot.versions with
          | some v =>
              .error (SNAPSHOT_INVALID ++ ": the schema snapshot lists " ++ v.subject ++ "@" ++
                toString v.version ++ " twice")
          | none => .ok snapshot

theorem distinct_of_parse {B : Bytes} {bytes : List UInt8} {sha256 : String} {snapshot : Snapshot}
    (parsed : Snapshot.parse B bytes sha256 = .ok snapshot) :
    (snapshot.versions.map SnapshotVersion.key).Nodup := by
  have distinct : ∀ (versions : List SnapshotVersion) (seen : List (String × UInt32)),
      repeated seen versions = none →
        (versions.map SnapshotVersion.key).Nodup ∧ ∀ v ∈ versions, v.key ∉ seen := by
    intro versions
    induction versions with
    | nil => exact fun _ _ => ⟨List.nodup_nil, fun v mem => (List.not_mem_nil mem).elim⟩
    | cons v versions ih =>
        intro seen once
        rw [repeated] at once
        split_ifs at once with again
        obtain ⟨rest, apart⟩ := ih (v.key :: seen) once
        refine ⟨List.nodup_cons.mpr ⟨fun mem => ?_, rest⟩, fun w mem => ?_⟩
        · obtain ⟨w, later, same⟩ := List.mem_map.mp mem
          exact apart w later (same ▸ List.mem_cons_self)
        · rcases List.mem_cons.mp mem with rfl | later
          · exact again
          · exact fun before => apart w later (List.mem_cons_of_mem _ before)
  simp only [Snapshot.parse] at parsed
  split_ifs at parsed with digest
  split at parsed
  · cases parsed
  · split_ifs at parsed with format
    split at parsed
    · cases parsed
    · next once =>
        cases parsed
        exact (distinct _ [] once).1

def insertSubject (s : String) : List String → List String
  | [] => [s]
  | t :: rest =>
      if s < t then s :: t :: rest
      else if s = t then t :: rest
      else t :: insertSubject s rest

theorem mem_insertSubject {s x : String} : ∀ {subjects : List String},
    x ∈ insertSubject s subjects ↔ x = s ∨ x ∈ subjects := by
  intro subjects
  induction subjects with
  | nil => simp [insertSubject]
  | cons t rest ih =>
      rw [insertSubject]
      split
      · exact List.mem_cons
      · split
        · rename_i same
          subst same
          simp
        · rw [List.mem_cons, ih, List.mem_cons, or_left_comm]

variable (versions : List SnapshotVersion)

def bySubject (subject : String) : List SnapshotVersion :=
  (versions.filter fun v => v.subject = subject).insertionSort fun a b => a.version ≤ b.version

def holdsSubject (subject : String) : Bool := versions.any fun v => v.subject = subject

def followReferences (refs : List SchemaReference) (walk : List String × List String) :
    List String × List String :=
  refs.foldl (fun walk r =>
    if holdsSubject versions r.subject && r.subject ∉ walk.2 then
      (r.subject :: walk.1, insertSubject r.subject walk.2)
    else walk) walk

def followSubject (walk : List String × List String) : List String × List String :=
  match walk.1 with
  | [] => walk
  | subject :: frontier =>
      followReferences versions ((bySubject versions subject).flatMap SnapshotVersion.references)
        (frontier, walk.2)

/-- The subjects holding an ID in `needed`, and those their references name.  Every turn takes
a subject off the frontier, and each is put on it once. -/
def closureSubjects (needed : List UInt32) : List String :=
  let subjects := (versions.filter fun v => v.id ∈ needed).foldl
    (fun subjects v => insertSubject v.subject subjects) []
  ((followSubject versions)^[versions.length] (subjects.reverse, subjects)).2

def dependencies (v : SnapshotVersion) : List SnapshotVersion :=
  (bySubject versions v.subject).filter (fun e => e.version < v.version) ++
    v.references.filterMap fun r => (bySubject versions r.subject).find? fun e => e.version = r.version

/-- `visit`, to a depth: a version under way is not visited again, so the depth of the
snapshot's length is enough. -/
def visit : Nat → List (String × UInt32) → List SnapshotVersion → SnapshotVersion →
    List SnapshotVersion
  | 0, _, order, _ => order
  | depth + 1, visiting, order, v =>
      if v.key ∈ order.map SnapshotVersion.key ∨ v.key ∈ visiting then order
      else
        (dependencies versions v).foldl (visit depth (v.key :: visiting)) order ++ [v]

def closure (snapshot : Snapshot) (needed : List UInt32) : List SnapshotVersion :=
  (closureSubjects snapshot.versions needed).foldl
    (fun order subject => (bySubject snapshot.versions subject).foldl
      (visit snapshot.versions (snapshot.versions.length + 1) []) order) []

section

variable {versions}

theorem mem_bySubject {subject : String} {v : SnapshotVersion} :
    v ∈ bySubject versions subject ↔ v ∈ versions ∧ v.subject = subject := by
  rw [bySubject, (List.perm_insertionSort _ _).mem_iff, List.mem_filter, decide_eq_true_eq]

theorem mem_dependencies {v d : SnapshotVersion} (dep : d ∈ dependencies versions v) :
    d ∈ versions := by
  rcases List.mem_append.mp dep with earlier | referenced
  · exact (mem_bySubject.mp (List.mem_filter.mp earlier).1).1
  · obtain ⟨r, -, found⟩ := List.mem_filterMap.mp referenced
    exact (mem_bySubject.mp (List.mem_of_find?_eq_some found)).1

/-- An order grown by visits: no key twice, and nothing that was under way. -/
structure Grown (versions : List SnapshotVersion) (visiting : List (String × UInt32))
    (order order' : List SnapshotVersion) : Prop where
  distinct : (order.map SnapshotVersion.key).Nodup → (order'.map SnapshotVersion.key).Nodup
  new : ∀ x ∈ order', x ∈ order ∨ (x ∈ versions ∧ x.key ∉ visiting)

theorem Grown.refl (visiting : List (String × UInt32)) (order : List SnapshotVersion) :
    Grown versions visiting order order := ⟨id, fun _ mem => .inl mem⟩

theorem Grown.trans {visiting : List (String × UInt32)} {a b c : List SnapshotVersion}
    (first : Grown versions visiting a b) (second : Grown versions visiting b c) :
    Grown versions visiting a c where
  distinct nodup := second.distinct (first.distinct nodup)
  new x mem := (second.new x mem).elim (first.new x) .inr

theorem grown_foldl {visiting : List (String × UInt32)}
    {f : List SnapshotVersion → SnapshotVersion → List SnapshotVersion} :
    ∀ {l : List SnapshotVersion} {order : List SnapshotVersion},
      (∀ v ∈ l, ∀ order, Grown versions visiting order (f order v)) →
        Grown versions visiting order (l.foldl f order) := by
  intro l
  induction l with
  | nil => exact fun _ => .refl visiting _
  | cons v l ih =>
      intro order grows
      have first := grows v List.mem_cons_self order
      exact first.trans (ih fun w mem => grows w (List.mem_cons_of_mem v mem))

theorem grown_visit : ∀ (depth : Nat) (visiting : List (String × UInt32)) (v : SnapshotVersion),
    v ∈ versions → ∀ order, Grown versions visiting order (visit versions depth visiting order v) := by
  intro depth
  induction depth with
  | zero => exact fun visiting _ _ order => .refl visiting order
  | succ depth ih =>
      intro visiting v mem order
      rw [visit]
      split_ifs with done
      · exact .refl visiting order
      · have below : Grown versions (v.key :: visiting) order
            ((dependencies versions v).foldl (visit versions depth (v.key :: visiting)) order) :=
          grown_foldl fun d dep order => ih _ d (mem_dependencies dep) order
        rw [not_or] at done
        refine ⟨fun nodup => ?_, fun x there => ?_⟩
        · rw [List.map_append, List.nodup_append]
          refine ⟨below.distinct nodup, List.nodup_singleton _, fun k old k' last => ?_⟩
          obtain ⟨x, there, rfl⟩ := List.mem_map.mp old
          rw [List.map_singleton, List.mem_singleton] at last
          subst last
          rcases below.new x there with before | ⟨-, other⟩
          · exact fun same => done.1 (same ▸ List.mem_map_of_mem before)
          · exact fun same => other (same ▸ List.mem_cons_self)
        · rcases List.mem_append.mp there with before | last
          · rcases below.new x before with old | ⟨listed, other⟩
            · exact .inl old
            · exact .inr ⟨listed, fun above => other (List.mem_cons_of_mem _ above)⟩
          · rw [List.mem_singleton.mp last]
            exact .inr ⟨mem, done.2⟩

theorem grown_closure (snapshot : Snapshot) (needed : List UInt32) :
    Grown snapshot.versions [] [] (closure snapshot needed) := by
  have every : ∀ (subjects : List String) (order : List SnapshotVersion),
      Grown snapshot.versions [] order (subjects.foldl (fun order subject =>
        (bySubject snapshot.versions subject).foldl
          (visit snapshot.versions (snapshot.versions.length + 1) []) order) order) := by
    intro subjects
    induction subjects with
    | nil => exact fun order => .refl [] order
    | cons subject subjects ih =>
        intro order
        have one : Grown snapshot.versions [] order ((bySubject snapshot.versions subject).foldl
            (visit snapshot.versions (snapshot.versions.length + 1) []) order) :=
          grown_foldl fun v mem order => grown_visit _ [] v (mem_bySubject.mp mem).1 order
        exact one.trans (ih _)
  exact every _ []

theorem closure_distinct (snapshot : Snapshot) (needed : List UInt32) :
    ((closure snapshot needed).map SnapshotVersion.key).Nodup :=
  (grown_closure snapshot needed).distinct List.nodup_nil

end

end Logweir.SchemaRegistry
