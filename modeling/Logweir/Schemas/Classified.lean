import Logweir.Library.Results
import Logweir.Schemas.Registry

/-!
# What a classification says of the registry

`classify` and `writable_modes` read a registry and leave it as it is.  What `classify`
answers is what the registry holds, and a registry that holds it is classified so.
-/

set_option autoImplicit false

namespace Logweir.SchemaRegistry

open Logweir.Json Logweir.Text Logweir.Results Logweir.Programs Logweir.Programs.Program

section

variable {R : Rules} {g : Registry} {α : Type}

theorem safe_send {request : Request} {always : Registry → Prop}
    {post : Registry → Except ImportRefusal α → Prop} {f : Nat × Json → Pass α} (kept : always g)
    (failed : ∀ e g', g' = g ∨ g' = (g.serve R request).2 → always g' ∧ post g' (.error e))
    (answered : ∀ status body, (g.serve R request).1 = .ok (status, body) →
      (f (status, body)).Safe (Registry.faulty R) always post (g.serve R request).2) :
    (send request >>= f).Safe (Registry.faulty R) always post g := by
  refine ⟨kept, fun answer g' served => ?_⟩
  have left : g' = g ∨ g' = (g.serve R request).2 := by
    rcases served with same | ⟨-, either⟩
    · exact .inr (congrArg Prod.snd same)
    · exact either
  cases through : transport request answer with
  | error e =>
      obtain ⟨kept', ended⟩ := failed e g' left
      change ((orStop (transport request answer) : Pass (Nat × Json)).bind f).Safe
        (Registry.faulty R) always post g'
      rw [through]
      exact ⟨kept', ended⟩
  | ok got =>
      obtain ⟨status, body⟩ := got
      obtain ⟨same, said⟩ := served_of_transport served through
      change ((orStop (transport request answer) : Pass (Nat × Json)).bind f).Safe
        (Registry.faulty R) always post g'
      rw [through, show g' = (g.serve R request).2 from congrArg Prod.snd same]
      exact answered status body (by rw [← congrArg Prod.fst same, said])

theorem run_send {request : Request} {status : Nat} {body : Json}
    (said : (g.serve R request).1 = .ok (status, body))
    (through : status ≠ 401 ∧ status ≠ 403 ∧ status < 500) :
    (send request).run (Registry.serve R) g = (.ok (status, body), (g.serve R request).2) := by
  have read : transport request (g.serve R request).1 = .ok (status, body) := by
    rw [said, transport, if_neg (by omega), if_neg (by omega)]
  change (orStop (transport request (g.serve R request).1) : Pass (Nat × Json)).run
    (Registry.serve R) (g.serve R request).2 = _
  rw [read]
  rfl

/-- What reads ends in the registry it began in. -/
def Reads (R : Rules) (g : Registry) (p : Pass α) (post : α → Prop) : Prop :=
  p.Safe (Registry.faulty R) (fun t => t = g) (fun _ r => ∀ a, r = .ok a → post a) g

theorem reads_pure {a : α} {post : α → Prop} (holds : post a) : Reads R g (pure a) post :=
  safe_pure rfl fun _ same => Except.ok.inj same ▸ holds

theorem reads_stop {e : ImportRefusal} {post : α → Prop} : Reads R g (.stop e) post :=
  safe_stop rfl fun _ => not_ok

theorem reads_orStop {r : Except ImportRefusal α} {post : α → Prop}
    (holds : ∀ a, r = .ok a → post a) : Reads R g (orStop r) post := by
  cases r with
  | error e => exact reads_stop
  | ok a => exact reads_pure (holds a rfl)

theorem reads_bind {β : Type} {p : Pass α} {f : α → Pass β} {middle : α → Prop} {post : β → Prop}
    (first : Reads R g p middle) (rest : ∀ a, middle a → Reads R g (f a) post) :
    Reads R g (p >>= f) post := by
  refine safe_bind first (fun s e _ _ a => not_ok) fun s a here holds => ?_
  subst here
  exact rest a (holds a rfl)

theorem reads_mono {p : Pass α} {middle post : α → Prop} (held : Reads R g p middle)
    (weaker : ∀ a, middle a → post a) : Reads R g p post :=
  safe_mono held fun _ _ _ holds a same => weaker a (holds a same)

theorem reads_send {request : Request} {f : Nat × Json → Pass α} {post : α → Prop}
    (reads : request.reads = true)
    (rest : ∀ status body, (g.serve R request).1 = .ok (status, body) →
      Reads R g (f (status, body)) post) : Reads R g (send request >>= f) post := by
  refine safe_send rfl (fun e g' left => ?_) fun status body said => ?_
  · rw [serve_reads reads, or_self] at left
    exact ⟨left, fun _ => not_ok⟩
  · rw [serve_reads reads]
    exact rest status body said

end

section

variable (R : Rules) (g : Registry)

def Agrees (v : SnapshotVersion) : Class → Prop
  | .present => (g.schemas v.id).isSome ∧
      ∃ h, g.lookUp R v.subject v.content = some h ∧ h.id = v.id ∧ h.version = v.version
  | .import_ => g.schemas v.id = none ∧ g.find v.subject v.version = none

/-- Each entry has its class, and the entries' subjects hold no version but the entries'. -/
structure Classified (entries : List SnapshotVersion) (classes : List Class) : Prop where
  agree : List.Forall₂ (Agrees R g) entries classes
  within : ∀ h ∈ g.held, ∀ v ∈ entries, h.subject = v.subject →
    ∃ w ∈ entries, w.subject = h.subject ∧ w.version = h.version

end

section

variable {R : Rules} {g : Registry} {v : SnapshotVersion}

@[simp] theorem asU64_toNat (n : UInt32) : asU64 (.num n.toNat) = some n.toNat := by
  have small := n.toNat_lt
  rw [asU64, if_pos (by omega), Int.toNat_natCast]

theorem errorCode_errorBody {code : Nat} (small : code < 65536) :
    errorCode (errorBody R code) = some code := by
  have read : asU64 (.num (code : Int)) = some code := by
    rw [asU64, if_pos ⟨by omega, by omega⟩, Int.toNat_natCast]
  have named : field "error_code" (errorBody R code) = some (.num code) := rfl
  rw [errorCode, named, Option.bind_some, read]

theorem reads_classifyOne : Reads R g (classifyOne v) (Agrees R g v) := by
  refine reads_send rfl fun status body said => ?_
  simp only [Registry.serve] at said
  cases byId : g.schemas v.id with
  | some c =>
      rw [byId] at said
      cases said
      dsimp only
      rw [if_pos rfl]
      refine reads_send rfl fun status look said => reads_orStop fun c ok => ?_
      simp only [Registry.serve] at said
      cases found : g.lookUp R v.subject v.content with
      | none =>
          rw [found] at said
          cases said
          simp [heldClass] at ok
      | some h =>
          rw [found] at said
          cases said
          unfold heldClass at ok
          split_ifs at ok with same
          cases ok
          obtain ⟨-, id, version⟩ := same
          have idField : field "id" (.obj [("subject", .str v.subject),
            ("version", .num h.version.toNat), ("id", .num h.id.toNat)]) =
              some (.num h.id.toNat) := rfl
          have versionField : field "version" (.obj [("subject", .str v.subject),
            ("version", .num h.version.toNat), ("id", .num h.id.toNat)]) =
              some (.num h.version.toNat) := rfl
          rw [idField, Option.bind_some, asU64_toNat] at id
          rw [versionField, Option.bind_some, asU64_toNat] at version
          refine ⟨by rw [byId]; rfl, h, found, ?_, ?_⟩
          · exact UInt32.toNat_inj.mp (Option.some.inj id)
          · exact UInt32.toNat_inj.mp (Option.some.inj version)
  | none =>
      rw [byId] at said
      cases said
      have code : errorCode (errorBody R SCHEMA_NOT_FOUND) = some SCHEMA_NOT_FOUND :=
        errorCode_errorBody (by decide)
      dsimp only
      rw [if_neg (by decide), if_pos ⟨rfl, code⟩]
      refine reads_send rfl fun status body said => reads_orStop fun c ok => ?_
      simp only [Registry.serve] at said
      cases found : g.find v.subject v.version with
      | some h =>
          rw [found] at said
          cases said
          simp [absentClass] at ok
      | none =>
          unfold absentClass at ok
          split_ifs at ok
          cases ok
          exact ⟨byId, found⟩

theorem reads_classifyEach : ∀ entries : List SnapshotVersion,
    Reads R g (classifyEach entries) (List.Forall₂ (Agrees R g) entries) := by
  intro entries
  induction entries with
  | nil => exact reads_pure .nil
  | cons v entries ih =>
      refine reads_bind reads_classifyOne fun c one => ?_
      exact reads_bind ih fun classes rest => reads_pure (.cons one rest)

theorem versionList_held : ∀ held : List Held,
    versionList (.arr (held.map fun h => .num h.version.toNat)) =
      some (held.map fun h => h.version.toNat) := by
  intro held
  induction held with
  | nil => rfl
  | cons h held ih =>
      have small := h.version.toNat_lt
      have one : (asU64 (.num h.version.toNat)).filter (fun n => n < 4294967296) =
          some h.version.toNat := by
        rw [asU64_toNat, Option.filter_some, if_pos (decide_eq_true small)]
      simp only [versionList] at ih ⊢
      rw [List.map_cons, List.mapM_cons, one, ih]
      rfl

theorem within_of_heldVersions {entries : List SnapshotVersion} {first : SnapshotVersion}
    {subject : String} {status : Nat} {body : Json}
    (said : (g.serve R (.getVersions subject)).1 = .ok (status, body))
    (ok : heldVersions first ((entries.filter fun v => v.subject = subject).map fun v =>
      v.version.toNat) status body = .ok ()) :
    ∀ h ∈ g.held, h.subject = subject → ∃ w ∈ entries, w.subject = h.subject ∧ w.version = h.version := by
  intro h there own
  have holds : g.holdsSubject subject = true :=
    List.any_eq_true.mpr ⟨h, there, decide_eq_true own⟩
  simp only [Registry.serve, holds, if_true] at said
  cases said
  unfold heldVersions at ok
  rw [if_neg (by simp), if_pos rfl] at ok
  split at ok
  · cases ok
  · next held parsed =>
      split at ok
      · cases ok
      · next within =>
          have listed : h.version.toNat ∈ held := by
            have all := versionList_held (g.held.filter fun h => h.subject = subject)
            cases all.symm.trans parsed
            exact List.mem_map_of_mem (List.mem_filter.mpr ⟨there, decide_eq_true own⟩)
          have inside := List.find?_eq_none.mp within _ listed
          rw [decide_eq_true_eq, Classical.not_not] at inside
          obtain ⟨w, mem, same⟩ := List.mem_map.mp inside
          obtain ⟨mem, owner⟩ := List.mem_filter.mp mem
          exact ⟨w, mem, (of_decide_eq_true owner).trans own.symm, UInt32.toNat_inj.mp same⟩

theorem mem_subjectsOf {entries : List SnapshotVersion} {s : String} :
    s ∈ subjectsOf entries ↔ ∃ v ∈ entries, v.subject = s := by
  have every : ∀ (entries : List SnapshotVersion) (subjects : List String),
      s ∈ entries.foldl (fun subjects v => insertSubject v.subject subjects) subjects ↔
        s ∈ subjects ∨ ∃ v ∈ entries, v.subject = s := by
    intro entries
    induction entries with
    | nil => simp
    | cons v entries ih =>
        intro subjects
        rw [List.foldl_cons, ih, mem_insertSubject]
        simp only [List.mem_cons, exists_eq_or_imp]
        constructor
        · rintro ((rfl | there) | later)
          · exact .inr (.inl rfl)
          · exact .inl there
          · exact .inr (.inr later)
        · rintro (there | rfl | later)
          · exact .inl (.inr there)
          · exact .inl (.inl rfl)
          · exact .inr later
  rw [subjectsOf, every entries []]
  simp

/-- The subject holds no version but the entries'. -/
def Within (g : Registry) (entries : List SnapshotVersion) (subject : String) : Prop :=
  ∀ h ∈ g.held, h.subject = subject → ∃ w ∈ entries, w.subject = h.subject ∧ w.version = h.version

theorem reads_checkSubjects (entries : List SnapshotVersion) : ∀ subjects : List String,
    (∀ s ∈ subjects, ∃ v ∈ entries, v.subject = s) →
      Reads R g (checkSubjects entries subjects) fun _ => ∀ s ∈ subjects, Within g entries s := by
  intro subjects
  induction subjects with
  | nil => exact fun _ => reads_pure fun _ none => (List.not_mem_nil none).elim
  | cons s subjects ih =>
      intro owned
      have one : Reads R g (checkSubject entries s) fun _ => Within g entries s := by
        refine reads_send rfl fun status body said => ?_
        obtain ⟨v, mem, own⟩ := owned s List.mem_cons_self
        dsimp only
        split
        · next none => exact absurd (decide_eq_true own) (List.find?_eq_none.mp none v mem)
        · next first found =>
            refine reads_orStop fun _ ok => ?_
            exact within_of_heldVersions said ok
      refine reads_bind one fun _ within => ?_
      refine reads_mono (ih fun t mem => owned t (List.mem_cons_of_mem s mem)) fun _ rest t mem => ?_
      rcases List.mem_cons.mp mem with rfl | later
      · exact within
      · exact rest t later

theorem reads_classify (entries : List SnapshotVersion) :
    Reads R g (classify entries) (Classified R g entries) := by
  refine reads_bind (reads_classifyEach entries) fun classes agree => ?_
  refine reads_bind (reads_checkSubjects entries _ fun s mem => mem_subjectsOf.mp mem) fun _ within => ?_
  refine reads_pure ⟨agree, fun h there v mem own => ?_⟩
  exact within h.subject (mem_subjectsOf.mpr ⟨v, mem, own.symm⟩) h there rfl

theorem run_classifyOne {c : Class} (agrees : Agrees R g v c) :
    (classifyOne v).run (Registry.serve R) g = (.ok c, g) := by
  cases c with
  | present =>
      obtain ⟨held, h, found, id, version⟩ := agrees
      obtain ⟨body, byId⟩ := Option.isSome_iff_exists.mp held
      have said : (g.serve R (.getById v.id)).1 =
          .ok (200, .obj [("schema", .str body.schema)]) := by
        simp only [Registry.serve, byId]
      have look : (g.serve R (.lookUp v.subject v.content)).1 =
          .ok (200, .obj [("subject", .str v.subject), ("version", .num h.version.toNat),
            ("id", .num h.id.toNat)]) := by
        simp only [Registry.serve, found]
      have first := run_send said (by decide)
      have second := run_send look (by decide)
      rw [serve_reads rfl] at first second
      have present : heldClass v 200 (.obj [("subject", .str v.subject),
          ("version", .num h.version.toNat), ("id", .num h.id.toNat)]) = .ok .present := by
        have idField : field "id" (.obj [("subject", .str v.subject),
            ("version", .num h.version.toNat), ("id", .num h.id.toNat)]) =
              some (.num h.id.toNat) := rfl
        have versionField : field "version" (.obj [("subject", .str v.subject),
            ("version", .num h.version.toNat), ("id", .num h.id.toNat)]) =
              some (.num h.version.toNat) := rfl
        rw [heldClass, idField, versionField, Option.bind_some, Option.bind_some, asU64_toNat,
          asU64_toNat, id, version, if_pos ⟨rfl, rfl, rfl⟩]
      rw [classifyOne, run_bind first]
      dsimp only
      rw [if_pos rfl, run_bind second]
      dsimp only
      rw [present]
      rfl
  | import_ =>
      obtain ⟨byId, found⟩ := agrees
      have said : (g.serve R (.getById v.id)).1 = .ok (404, errorBody R SCHEMA_NOT_FOUND) := by
        simp only [Registry.serve, byId]
        rfl
      obtain ⟨code, known, absent⟩ : ∃ code, (code = SUBJECT_NOT_FOUND ∨ code = VERSION_NOT_FOUND) ∧
          (g.serve R (.getVersion v.subject v.version)).1 = .ok (404, errorBody R code) := by
        simp only [Registry.serve, found]
        split
        · exact ⟨VERSION_NOT_FOUND, .inr rfl, rfl⟩
        · exact ⟨SUBJECT_NOT_FOUND, .inl rfl, rfl⟩
      have first := run_send said (by decide)
      have second := run_send absent (by decide)
      rw [serve_reads rfl] at first second
      have notHeld : errorCode (errorBody R SCHEMA_NOT_FOUND) = some SCHEMA_NOT_FOUND :=
        errorCode_errorBody (by decide)
      have codeRead : errorCode (errorBody R code) = some code := by
        apply errorCode_errorBody
        rcases known with rfl | rfl <;> decide
      have import_ : absentClass v 404 (errorBody R code) = .ok .import_ := by
        rw [absentClass, codeRead, if_pos ⟨rfl, known.imp (congrArg some) (congrArg some)⟩]
      rw [classifyOne, run_bind first]
      dsimp only
      rw [if_neg (by decide), if_pos ⟨rfl, notHeld⟩, run_bind second]
      dsimp only
      rw [import_]
      rfl

theorem run_classifyEach {entries : List SnapshotVersion} {classes : List Class}
    (agree : List.Forall₂ (Agrees R g) entries classes) :
    (classifyEach entries).run (Registry.serve R) g = (.ok classes, g) := by
  induction agree with
  | nil => rfl
  | cons one _ ih =>
      rw [classifyEach, run_bind (run_classifyOne one), run_bind ih]
      rfl

theorem run_checkSubject {entries : List SnapshotVersion} {s : String}
    (within : Within g entries s) :
    (checkSubject entries s).run (Registry.serve R) g = (.ok (), g) := by
  have passes (status : Nat) (body : Json) (through : status ≠ 401 ∧ status ≠ 403 ∧ status < 500)
      (said : (g.serve R (.getVersions s)).1 = .ok (status, body))
      (fine : ∀ first, heldVersions first ((entries.filter fun v => v.subject = s).map fun v =>
        v.version.toNat) status body = .ok ()) :
      (checkSubject entries s).run (Registry.serve R) g = (.ok (), g) := by
    have sent := run_send said through
    rw [serve_reads rfl] at sent
    rw [checkSubject, run_bind sent]
    dsimp only
    split
    · rfl
    · next first found =>
        rw [fine first]
        rfl
  cases holds : g.holdsSubject s with
  | false =>
      have said : (g.serve R (.getVersions s)).1 = .ok (404, errorBody R SUBJECT_NOT_FOUND) := by
        simp only [Registry.serve, holds, Bool.false_eq_true, if_false]
        rfl
      refine passes _ _ (by decide) said fun first => ?_
      have code : errorCode (errorBody R SUBJECT_NOT_FOUND) = some SUBJECT_NOT_FOUND :=
        errorCode_errorBody (by decide)
      rw [heldVersions, if_pos ⟨rfl, code⟩]
  | true =>
      have said : (g.serve R (.getVersions s)).1 = .ok (200, .arr ((g.held.filter fun h =>
          h.subject = s).map fun h => .num h.version.toNat)) := by
        simp only [Registry.serve, holds, if_true]
      refine passes _ _ (by decide) said fun first => ?_
      have inside : ((g.held.filter fun h => h.subject = s).map fun h => h.version.toNat).find?
          (fun n => n ∉ (entries.filter fun v => v.subject = s).map fun v => v.version.toNat) =
            none := by
        refine List.find?_eq_none.mpr fun n mem => ?_
        obtain ⟨h, there, rfl⟩ := List.mem_map.mp mem
        obtain ⟨there, own⟩ := List.mem_filter.mp there
        obtain ⟨w, mem, same, version⟩ := within h there (of_decide_eq_true own)
        rw [decide_eq_true_eq, Classical.not_not]
        refine List.mem_map.mpr ⟨w, List.mem_filter.mpr ⟨mem, decide_eq_true ?_⟩, by rw [version]⟩
        exact same.trans (of_decide_eq_true own)
      rw [heldVersions, if_neg (fun missing => absurd missing.1 (by decide)), if_pos rfl,
        versionList_held]
      dsimp only
      rw [inside]

theorem run_checkSubjects {entries : List SnapshotVersion} : ∀ {subjects : List String},
    (∀ s ∈ subjects, Within g entries s) →
      (checkSubjects entries subjects).run (Registry.serve R) g = (.ok (), g) := by
  intro subjects
  induction subjects with
  | nil => exact fun _ => rfl
  | cons s subjects ih =>
      intro within
      rw [checkSubjects, run_bind (run_checkSubject (within s List.mem_cons_self))]
      exact ih fun t mem => within t (List.mem_cons_of_mem s mem)

theorem run_classify {entries : List SnapshotVersion} {classes : List Class}
    (classified : Classified R g entries classes) :
    (classify entries).run (Registry.serve R) g = (.ok classes, g) := by
  have within : ∀ s ∈ subjectsOf entries, Within g entries s := by
    intro s mem h there own
    obtain ⟨v, listed, same⟩ := mem_subjectsOf.mp mem
    exact classified.within h there v listed (own.trans same.symm)
  rw [classify, run_bind (run_classifyEach classified.agree), run_bind (run_checkSubjects within)]
  rfl

theorem reads_ownMode {s : String} : Reads R g (ownMode s) fun own => own = g.modes s := by
  refine reads_send rfl fun status body said => ?_
  simp only [Registry.serve] at said
  cases own : g.modes s with
  | some mode =>
      rw [own] at said
      cases said
      exact reads_pure rfl
  | none =>
      rw [own] at said
      dsimp only
      split_ifs with found absent
      · cases said
        cases found
      · exact reads_pure rfl
      · exact reads_stop

theorem reads_writableEach {global : String} : ∀ {subjects : List String},
    Reads R g (writableEach global subjects) fun modes =>
      modes = subjects.map (fun s => (s, g.modes s)) ∧
        ∀ s ∈ subjects, readOnly ((g.modes s).getD global) = false := by
  intro subjects
  induction subjects with
  | nil => exact reads_pure ⟨rfl, fun _ none => (List.not_mem_nil none).elim⟩
  | cons s subjects ih =>
      refine reads_bind reads_ownMode fun own same => ?_
      subst same
      dsimp only
      split_ifs with forbids
      · exact reads_stop
      · refine reads_bind ih fun modes rest => reads_pure ⟨?_, fun t mem => ?_⟩
        · rw [rest.1, List.map_cons]
        · rcases List.mem_cons.mp mem with rfl | later
          · exact Bool.not_eq_true _ ▸ forbids
          · exact rest.2 t later

theorem reads_writableModes {subjects : List String} :
    Reads R g (writableModes subjects) fun modes =>
      modes = subjects.map (fun s => (s, g.modes s)) ∧
        ∀ s ∈ subjects, readOnly (g.mode s) = false := by
  cases subjects with
  | nil => exact reads_pure ⟨rfl, fun _ none => (List.not_mem_nil none).elim⟩
  | cons first subjects =>
      refine reads_send rfl fun status body said => ?_
      cases said
      exact reads_writableEach

theorem run_ownMode {s : String} :
    (ownMode s).run (Registry.serve R) g = (.ok (g.modes s), g) := by
  cases own : g.modes s with
  | some mode =>
      have said : (g.serve R (.getModeOf s)).1 = .ok (200, .obj [("mode", .str mode)]) := by
        simp only [Registry.serve, own]
      have sent := run_send said (by decide)
      rw [serve_reads rfl] at sent
      rw [ownMode, run_bind sent]
      rfl
  | none =>
      obtain ⟨code, known, said⟩ : ∃ code, (code = NO_SUBJECT_MODE ∨ code = SUBJECT_NOT_FOUND) ∧
          (g.serve R (.getModeOf s)).1 = .ok (404, errorBody R code) := by
        simp only [Registry.serve, own]
        split
        · exact ⟨NO_SUBJECT_MODE, .inl rfl, rfl⟩
        · exact ⟨SUBJECT_NOT_FOUND, .inr rfl, rfl⟩
      have codeRead : errorCode (errorBody R code) = some code := by
        apply errorCode_errorBody
        rcases known with rfl | rfl <;> decide
      have sent := run_send said (by decide)
      rw [serve_reads rfl] at sent
      rw [ownMode, run_bind sent]
      dsimp only
      rw [if_neg (by decide), codeRead,
        if_pos ⟨rfl, known.imp (congrArg some) (congrArg some)⟩]
      rfl

theorem run_writableModes {subjects : List String}
    (writable : ∀ s ∈ subjects, readOnly (g.mode s) = false) :
    (writableModes subjects).run (Registry.serve R) g =
      (.ok (subjects.map fun s => (s, g.modes s)), g) := by
  have each : ∀ subjects : List String, (∀ s ∈ subjects, readOnly (g.mode s) = false) →
      (writableEach g.globalMode subjects).run (Registry.serve R) g =
        (.ok (subjects.map fun s => (s, g.modes s)), g) := by
    intro subjects
    induction subjects with
    | nil => exact fun _ => rfl
    | cons s subjects ih =>
        intro writable
        have own : readOnly ((g.modes s).getD g.globalMode) = false :=
          writable s List.mem_cons_self
        rw [writableEach, run_bind run_ownMode]
        dsimp only
        rw [own, if_neg Bool.false_ne_true,
          run_bind (ih fun t mem => writable t (List.mem_cons_of_mem s mem))]
        rfl
  cases subjects with
  | nil => rfl
  | cons first subjects =>
      have said : (g.serve R .getMode).1 = .ok (200, .obj [("mode", .str g.globalMode)]) := rfl
      have sent := run_send said (by decide)
      rw [serve_reads rfl] at sent
      rw [writableModes, run_bind sent]
      exact each (first :: subjects) writable

end

end Logweir.SchemaRegistry
