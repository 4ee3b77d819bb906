import Mathlib.Data.List.Find
import Logweir.Schemas.Imported

/-!
# An import that was interrupted

Where an import broke off, the registry holds some of the versions to import.  Each of them
is found again as present when no other version shares its ID and no other version of its
subject has its content; a second import then registers the others.
-/

set_option autoImplicit false

namespace Logweir.SchemaRegistry

open Logweir.Json Logweir.Text Logweir.Programs Logweir.Programs.Program

/-- Every version has its schema, and a subject holds a version once. -/
structure Registry.WellFormed (g : Registry) : Prop where
  whole : ∀ h ∈ g.held, (g.schemas h.id).isSome
  distinct : (g.held.map fun h => (h.subject, h.version)).Nodup

/-- A version that the registry does not hold has an ID of its own, and a content that no other
version of its subject has. -/
structure Distinguished (R : Rules) (g : Registry) (entries : List SnapshotVersion) : Prop where
  byId : ∀ v ∈ entries, g.schemas v.id = none → ∀ w ∈ entries, w.id = v.id → w = v
  byContent : ∀ v ∈ entries, g.schemas v.id = none → ∀ w ∈ entries, w.subject = v.subject →
    R.same w.content v.content = true → w = v

def classOn (known : List SnapshotVersion) (e : SnapshotVersion × Class) : Class :=
  if e.1 ∈ known then .present else e.2

section

variable {R : Rules} {s g : Registry} {entries known : List SnapshotVersion} {classes : List Class}

theorem agrees_of_mem {e : SnapshotVersion × Class} (agree : List.Forall₂ (Agrees R g) entries classes)
    (mem : e ∈ entries.zip classes) : e.1 ∈ entries ∧ Agrees R g e.1 e.2 := by
  induction agree with
  | nil => cases mem
  | @cons v c entries classes first _ ih =>
      rcases List.mem_cons.mp mem with rfl | later
      · exact ⟨List.mem_cons_self, first⟩
      · exact (ih later).imp (List.mem_cons_of_mem v) id

theorem forall₂_zip {α β γ : Type} {P : α → β → Prop} {Q : α → γ → Prop} {f : α × β → γ}
    {l : List α} {m : List β} (held : List.Forall₂ P l m)
    (each : ∀ e ∈ l.zip m, Q e.1 (f e)) : List.Forall₂ Q l ((l.zip m).map f) := by
  induction held with
  | nil => exact .nil
  | @cons a b l m _ _ ih =>
      exact .cons (each (a, b) List.mem_cons_self) (ih fun e mem => each e (List.mem_cons_of_mem _ mem))

theorem zip_zip_map {α β γ : Type} {f : α × β → γ} : ∀ {l : List α} {m : List β},
    l.zip ((l.zip m).map f) = (l.zip m).map fun e => (e.1, f e)
  | [], _ => rfl
  | _ :: _, [] => rfl
  | _ :: _, _ :: _ => congrArg _ zip_zip_map

theorem toImport_classOn (pairs : List (SnapshotVersion × Class)) :
    toImport (pairs.map fun e => (e.1, classOn known e)) =
      (toImport pairs).filter fun v => v ∉ known := by
  induction pairs with
  | nil => rfl
  | cons e pairs ih =>
      obtain ⟨v, c⟩ := e
      rw [List.map_cons]
      by_cases there : v ∈ known
      · have now : classOn known (v, c) = .present := if_pos there
        rw [now, toImport_skip _ (by simp), ih]
        cases c with
        | present => rw [toImport_skip _ (by simp)]
        | import_ => rw [toImport_cons, List.filter_cons_of_neg (by simpa using there)]
      · have now : classOn known (v, c) = c := if_neg there
        rw [now]
        cases c with
        | present => rw [toImport_skip _ (by simp), toImport_skip _ (by simp), ih]
        | import_ =>
            rw [toImport_cons, toImport_cons, List.filter_cons_of_pos (by simpa using there), ih]

theorem mem_imports (agree : List.Forall₂ (Agrees R s) entries classes) {v : SnapshotVersion}
    (mem : v ∈ toImport (entries.zip classes)) :
    v ∈ entries ∧ s.schemas v.id = none ∧ s.find v.subject v.version = none :=
  agrees_of_mem agree (mem_toImport.mp mem)

theorem fresh_imports (agree : List.Forall₂ (Agrees R s) entries classes)
    (keys : (entries.map SnapshotVersion.key).Nodup) : Fresh s (toImport (entries.zip classes)) where
  distinct := by
    have sub : (toImport (entries.zip classes)).Sublist entries := by
      have first : (entries.zip classes).map Prod.fst = entries := List.map_fst_zip (agree.length_eq.le)
      have part : (toImport (entries.zip classes)).Sublist ((entries.zip classes).map Prod.fst) :=
        List.filter_sublist.map Prod.fst
      rwa [first] at part
    exact (sub.map SnapshotVersion.key).nodup keys
  absent v mem := (mem_imports agree mem).2.2

theorem Progress.schemas_of_some (held : Progress R s known g) {i : UInt32}
    (some_ : (s.schemas i).isSome) : g.schemas i = s.schemas i := by
  obtain ⟨c, is⟩ := Option.isSome_iff_exists.mp some_
  rw [held.schemas, is]
  rfl

theorem Progress.lookUp_of_some (well : s.WellFormed) (held : Progress R s known g) {subject : String}
    {body : Content} {h : Held} (found : s.lookUp R subject body = some h) :
    g.lookUp R subject body = some h := by
  have same : s.held.find? (fun h => h.subject = subject && (g.schemas h.id).any fun c => R.same c body) =
      s.held.find? fun h => h.subject = subject && (s.schemas h.id).any fun c => R.same c body :=
    List.find?_congr fun h there => by rw [held.schemas_of_some (well.whole h there)]
  rw [Registry.lookUp] at found
  rw [Registry.lookUp, held.held, List.find?_append, same, found]
  rfl

theorem row_of_held (well : s.WellFormed) (classified : Classified R s entries classes)
    {h : Held} (there : h ∈ s.held) {v : SnapshotVersion} (mem : v ∈ entries)
    (own : h.subject = v.subject) :
    ∃ w ∈ entries, w.subject = v.subject ∧ h.version = w.version ∧ h.id = w.id ∧
      (∃ c, s.schemas h.id = some c ∧ R.same c w.content = true) ∧ (s.schemas w.id).isSome := by
  obtain ⟨w, listed, same, version⟩ := classified.within h there v mem own
  obtain ⟨c, paired⟩ : ∃ c, (w, c) ∈ entries.zip classes := by
    have first : (entries.zip classes).map Prod.fst = entries :=
      List.map_fst_zip classified.agree.length_eq.le
    rw [← first] at listed
    obtain ⟨⟨w', c⟩, there, rfl⟩ := List.mem_map.mp listed
    exact ⟨c, there⟩
  have agrees := (agrees_of_mem classified.agree paired).2
  cases c with
  | import_ => exact absurd ⟨same.symm, version.symm⟩ (find_none.mp agrees.2 h there)
  | present =>
      obtain ⟨held, h', found, id, version'⟩ := agrees
      have listed' := List.mem_of_find?_eq_some found
      have fits := List.find?_some found
      rw [Bool.and_eq_true, decide_eq_true_eq] at fits
      have row : h = h' := by
        refine List.inj_on_of_nodup_map well.distinct there listed' (Prod.ext ?_ ?_)
        · exact same.symm.trans fits.1.symm
        · exact version.symm.trans version'.symm
      subst row
      refine ⟨w, listed, same.trans own, version', id, ?_, held⟩
      simpa [Option.any_eq_true] using fits.2

theorem found_of_known (lawful : R.Lawful) (well : s.WellFormed)
    (classified : Classified R s entries classes) (apart : Distinguished R s entries)
    (held : Progress R s known g) (within : known ⊆ toImport (entries.zip classes))
    {v : SnapshotVersion} (mem : v ∈ known) :
    g.lookUp R v.subject v.content = some v.row := by
  obtain ⟨listed, absent, free⟩ := mem_imports classified.agree (within mem)
  obtain ⟨c, now, same⟩ := held.taken v mem
  have matched : (v.row.subject = v.subject && (g.schemas v.row.id).any fun c => R.same c v.content)
      = true := by
    rw [show v.row.id = v.id from rfl, now]
    simpa [SnapshotVersion.row] using same
  have there : v.row ∈ g.held := by
    rw [held.held]
    exact List.mem_append_right _ (List.mem_map_of_mem mem)
  cases found : g.lookUp R v.subject v.content with
  | none => exact absurd matched (List.find?_eq_none.mp found v.row there)
  | some h =>
      have fits := List.find?_some found
      rw [Bool.and_eq_true, decide_eq_true_eq, Option.any_eq_true] at fits
      obtain ⟨own, c', is, fits⟩ := fits
      have member := List.mem_of_find?_eq_some found
      rw [held.held] at member
      -- the entry that `h` belongs to has the content of `v`
      have entry : ∃ w ∈ entries, w.subject = v.subject ∧ R.same w.content v.content = true ∧
          (h = w.row ∨ (s.schemas w.id).isSome) := by
        rcases List.mem_append.mp member with old | new
        · obtain ⟨w, listed, same, -, -, ⟨c, before, was⟩, here⟩ :=
            row_of_held well classified old listed own
          have still := held.schemas_of_some (well.whole h old)
          rw [before, is] at still
          cases still
          exact ⟨w, listed, same, lawful.trans _ _ _ (lawful.symm _ _ was) fits, .inr here⟩
        · obtain ⟨w, known', rfl⟩ := List.mem_map.mp new
          obtain ⟨c, is', was⟩ := held.taken w known'
          rw [show w.row.id = w.id from rfl, is'] at is
          cases is
          exact ⟨w, (mem_imports classified.agree (within known')).1, own,
            lawful.trans _ _ _ (lawful.symm _ _ was) fits, .inl rfl⟩
      obtain ⟨w, listed', same, alike, row⟩ := entry
      obtain rfl := apart.byContent v listed absent w listed' same alike
      rcases row with rfl | here
      · rfl
      · rw [absent] at here
        cases here

theorem free_of_unknown (classified : Classified R s entries classes)
    (apart : Distinguished R s entries) (held : Progress R s known g)
    (within : known ⊆ toImport (entries.zip classes)) {v : SnapshotVersion}
    (mem : v ∈ toImport (entries.zip classes)) (unknown : v ∉ known) : g.schemas v.id = none := by
  obtain ⟨listed, absent, -⟩ := mem_imports classified.agree mem
  have none : known.find? (fun w => w.id = v.id) = none := by
    refine List.find?_eq_none.mpr fun w there => ?_
    rw [decide_eq_true_eq]
    intro shared
    have listed' := (mem_imports classified.agree (within there)).1
    exact unknown (apart.byId v listed absent w listed' shared ▸ there)
  rw [held.schemas, absent, none]
  rfl

theorem classified_later (lawful : R.Lawful) (well : s.WellFormed)
    (classified : Classified R s entries classes) (keys : (entries.map SnapshotVersion.key).Nodup)
    (apart : Distinguished R s entries) (held : Progress R s known g)
    (within : known ⊆ toImport (entries.zip classes)) :
    Classified R g entries ((entries.zip classes).map (classOn known)) := by
  refine ⟨forall₂_zip classified.agree fun e paired => ?_, fun h there v mem own => ?_⟩
  · obtain ⟨v, c⟩ := e
    obtain ⟨listed, agrees⟩ := agrees_of_mem classified.agree paired
    by_cases mem : v ∈ known
    · rw [show classOn known (v, c) = .present from if_pos mem]
      obtain ⟨c, now, -⟩ := held.taken v mem
      exact ⟨by rw [now]; rfl, v.row, found_of_known lawful well classified apart held within mem, rfl, rfl⟩
    · rw [show classOn known (v, c) = c from if_neg mem]
      cases c with
      | present =>
          obtain ⟨some_, h, found, same⟩ := agrees
          exact ⟨by rw [held.schemas_of_some some_]; exact some_, h, held.lookUp_of_some well found, same⟩
      | import_ =>
          refine ⟨free_of_unknown classified apart held within (mem_toImport.mpr paired) mem, ?_⟩
          refine find_none.mpr fun h there same => ?_
          rw [held.held] at there
          rcases List.mem_append.mp there with old | new
          · exact find_none.mp agrees.2 h old same
          · obtain ⟨w, known', rfl⟩ := List.mem_map.mp new
            have listed' := (mem_imports classified.agree (within known')).1
            have both : w = v := List.inj_on_of_nodup_map keys listed' listed (Prod.ext same.1 same.2)
            exact mem (both ▸ known')
  · rw [held.held] at there
    rcases List.mem_append.mp there with old | new
    · exact classified.within h old v mem own
    · obtain ⟨w, known', rfl⟩ := List.mem_map.mp new
      exact ⟨w, (mem_imports classified.agree (within known')).1, rfl, rfl⟩

theorem asStr_mode (mode : String) : modeOf (.obj [("mode", .str mode)]) = some mode := rfl

theorem run_openSubject {v : SnapshotVersion} (may : R.modesChange = true) :
    (openSubject v).run (Registry.serve R) g =
      (.ok (), g.setMode v.subject (some "IMPORT")) := by
  have served : g.serve R (.putMode v.subject "IMPORT") =
      (.ok (200, .obj [("mode", .str "IMPORT")]), g.setMode v.subject (some "IMPORT")) := by
    simp only [Registry.serve, may, if_true]
  have set := run_send (congrArg Prod.fst served) (by decide)
  rw [served] at set
  have said : ((g.setMode v.subject (some "IMPORT")).serve R (.getModeOf v.subject)).1 =
      .ok (200, .obj [("mode", .str "IMPORT")]) := by
    simp only [Registry.serve, setMode_same]
  have asked := run_send said (by decide)
  rw [serve_reads rfl] at asked
  rw [openSubject, run_bind set]
  dsimp only
  rw [if_neg (by decide), run_bind asked]
  dsimp only
  rw [if_neg (by simp [asStr_mode])]
  rfl

theorem run_registerVersion {v : SnapshotVersion} (mode : g.modes v.subject = some "IMPORT")
    (takes : g.takes R v.content v.id = true) :
    (registerVersion v).run (Registry.serve R) g =
      (.ok (), g.add v.subject v.content v.id v.version) := by
  have served : g.serve R (.register v.subject v.content v.id v.version) =
      (.ok (200, .obj [("id", .num v.id.toNat)]), g.add v.subject v.content v.id v.version) := by
    have imports : g.mode v.subject = "IMPORT" := by rw [Registry.mode, mode, Option.getD_some]
    rw [Registry.serve, if_neg (by simp [imports]), if_neg (by simp [takes])]
  have sent := run_send (congrArg Prod.fst served) (by decide)
  rw [served] at sent
  have id : field "id" (.obj [("id", .num v.id.toNat)]) = some (.num v.id.toNat) := rfl
  rw [registerVersion, run_bind sent]
  dsimp only
  rw [id, Option.bind_some, asU64_toNat, if_neg (by simp)]
  rfl

theorem run_importEntry {v : SnapshotVersion} {opened : Bool} (may : R.modesChange = true)
    (mode : opened = true → g.modes v.subject = some "IMPORT")
    (takes : g.takes R v.content v.id = true) :
    ∃ u, (importEntry v opened).run (Registry.serve R) g =
        (.ok (), u.add v.subject v.content v.id v.version) ∧
      (∃ mode, u = g.setMode v.subject mode) ∧ u.modes v.subject = some "IMPORT" := by
  cases opened with
  | true =>
      exact ⟨g, run_registerVersion (mode rfl) takes, ⟨_, setMode_self.symm⟩, mode rfl⟩
  | false =>
      refine ⟨g.setMode v.subject (some "IMPORT"), ?_, ⟨_, rfl⟩, setMode_same⟩
      have opens := run_openSubject (g := g) (v := v) may
      have takes' : (g.setMode v.subject (some "IMPORT")).takes R v.content v.id = true := takes
      change (openSubject v >>= fun _ => registerVersion v).run (Registry.serve R) g = _
      rw [run_bind opens]
      exact run_registerVersion setMode_same takes'

theorem run_restoreMode {subject : String} {before : Option String} (may : R.modesChange = true)
    (mode : (g.modes subject).isSome) :
    (restoreMode subject before).run (Registry.serve R) g = (.ok (.ok ()), g.setMode subject before) := by
  rw [restoreMode_eq]
  cases before with
  | some was =>
      simp only [restoring, Program.run, Registry.serve, may, if_true]
      rfl
  | none =>
      obtain ⟨now, is⟩ := Option.isSome_iff_exists.mp mode
      simp only [restoring, Program.run, Registry.serve, is, may, if_true]
      rfl

/-- The subjects still open are at `IMPORT`. -/
structure Opened (st : Importing) (g : Registry) : Prop where
  once : st.importing.Nodup
  modes : ∀ t ∈ st.importing, g.modes t = some "IMPORT"

theorem nodup_insertSubject {t : String} : ∀ {subjects : List String}, t ∉ subjects →
    subjects.Nodup → (insertSubject t subjects).Nodup := by
  intro subjects
  induction subjects with
  | nil => exact fun _ _ => List.nodup_singleton t
  | cons u subjects ih =>
      intro out once
      rw [List.mem_cons, not_or] at out
      rw [insertSubject]
      split_ifs with below same
      · exact List.nodup_cons.mpr ⟨fun mem => (List.mem_cons.mp mem).elim out.1 out.2, once⟩
      · exact once
      · obtain ⟨first, once⟩ := List.nodup_cons.mp once
        refine List.nodup_cons.mpr ⟨fun mem => ?_, ih out.2 once⟩
        rcases mem_insertSubject.mp mem with rfl | later
        · exact out.1 rfl
        · exact first later

/-- What an import needs of the registry it runs on. -/
structure Ready (R : Rules) (s : Registry) (known rest : List SnapshotVersion) (g : Registry) : Prop where
  progress : Progress R s known g
  fresh : Fresh s (known ++ rest)
  takeable : Takeable R s known rest
  free : ∀ v ∈ known ++ rest, s.schemas v.id = none
  ids : ((known ++ rest).map SnapshotVersion.id).Nodup

theorem Ready.takes {v : SnapshotVersion} {rest : List SnapshotVersion}
    (ready : Ready R s known (v :: rest) g) : g.takes R v.content v.id = true := by
  obtain ⟨valid, refers, -⟩ := ready.takeable
  have resolves : g.resolves v.content = true :=
    List.all_eq_true.mpr fun r mem => (ready.progress.available r).mpr (refers r mem)
  have unused : known.find? (fun w => w.id = v.id) = none := by
    refine List.find?_eq_none.mpr fun w mem => ?_
    have ids := ready.ids
    rw [List.map_append, List.nodup_append] at ids
    simpa using ids.2.2 w.id (List.mem_map_of_mem mem) v.id (by simp)
  have free : g.schemas v.id = none := by
    rw [ready.progress.schemas, ready.free v (by simp), unused]
    rfl
  rw [Registry.takes, valid, resolves, free]
  rfl

theorem Ready.next {v : SnapshotVersion} {rest : List SnapshotVersion} (lawful : R.Lawful)
    (ready : Ready R s known (v :: rest) g) :
    Ready R s (known ++ [v]) rest (g.add v.subject v.content v.id v.version) where
  progress := ready.progress.add lawful ready.fresh.first.1 ready.takes
  fresh := ready.fresh.first.2
  takeable := ready.takeable.2.2
  free w mem := ready.free w (by simpa using mem)
  ids := by simpa using ready.ids

theorem Ready.setMode {rest : List SnapshotVersion} (ready : Ready R s known rest g)
    (subject : String) (mode : Option String) : Ready R s known rest (g.setMode subject mode) :=
  { ready with progress := ready.progress.setMode subject mode }

theorem Opened.entering {st : Importing} {subject : String} {mode : Option String}
    (opened : Opened st g) (set : (g.setMode subject mode).modes subject = some "IMPORT") :
    Opened (st.entering subject) (g.setMode subject mode) where
  once := by
    rw [Importing.entering]
    split_ifs with there
    · exact opened.once
    · exact nodup_insertSubject (of_decide_eq_false (Bool.not_eq_true _ ▸ there)) opened.once
  modes t mem := by
    by_cases own : t = subject
    · exact own ▸ set
    · rw [setMode_other own]
      exact opened.modes t ((mem_entering.mp mem).resolve_left own)

theorem Opened.left {st : Importing} {subject : String} {before : Option String}
    (opened : Opened st g) : Opened (st.left subject (.ok ())) (g.setMode subject before) where
  once := opened.once.erase subject
  modes t mem := by
    have other : t ≠ subject := (List.Nodup.mem_erase_iff opened.once).mp mem |>.1
    rw [setMode_other other]
    exact opened.modes t (List.mem_of_mem_erase mem)

theorem run_importEntries (lawful : R.Lawful) (may : R.modesChange = true)
    {before : String → Option String} : ∀ {pairs : List (SnapshotVersion × Class)} {st : Importing}
      {known : List SnapshotVersion} {g : Registry}, Ready R s known (toImport pairs) g →
      Opened st g → ∃ st' u, (importEntries before pairs st).run (Registry.serve R) g =
        (.ok (st', .ok ()), u) ∧ st'.notRestored = st.notRestored ∧ Opened st' u := by
  intro pairs
  induction pairs with
  | nil => exact fun {st _ g} _ opened => ⟨st, g, rfl, rfl, opened⟩
  | cons e rest ih =>
      obtain ⟨v, c⟩ := e
      intro st known g ready opened
      by_cases skipped : c = .import_
      · subst skipped
        rw [toImport_cons] at ready
        rw [importEntries_import]
        obtain ⟨u, ran, ⟨mode, rfl⟩, set⟩ := run_importEntry may
          (fun there => opened.modes _ (of_decide_eq_true there)) ready.takes
        have ready' := (ready.setMode v.subject mode).next lawful
        have entered := opened.entering set
        have opened' : Opened ((st.entering v.subject).registered v)
            ((g.setMode v.subject mode).add v.subject v.content v.id v.version) :=
          ⟨entered.once, entered.modes⟩
        have kept : (st.entering v.subject).notRestored = st.notRestored := by
          rw [Importing.entering]
          split_ifs <;> rfl
        rw [run_bind (run_attempt ran)]
        simp only [proceed]
        split_ifs
        · obtain ⟨st', u, ran, same, left⟩ := ih ready' opened'
          exact ⟨st', u, ran, same.trans kept, left⟩
        · have own : v.subject ∈ ((st.entering v.subject).registered v).importing :=
            mem_entering.mpr (.inl rfl)
          rw [run_bind (run_restoreMode may (Option.isSome_of_eq_some (opened'.modes _ own)))]
          obtain ⟨st', u, ran, same, left⟩ :=
            ih (ready'.setMode v.subject (before v.subject)) opened'.left
          exact ⟨st', u, ran, same.trans kept, left⟩
      · rw [toImport_skip rest skipped] at ready
        rw [importEntries_skip skipped]
        exact ih ready opened

theorem run_restoreEach (may : R.modesChange = true) {before : String → Option String} :
    ∀ {subjects notRestored : List String} {g : Registry}, subjects.Nodup →
      (∀ t ∈ subjects, g.modes t = some "IMPORT") →
        ∃ u, (restoreEach before subjects notRestored).run (Registry.serve R) g = (.ok notRestored, u) := by
  intro subjects
  induction subjects with
  | nil => exact fun {_ g} _ _ => ⟨g, rfl⟩
  | cons t subjects ih =>
      intro notRestored g once modes
      obtain ⟨out, once⟩ := List.nodup_cons.mp once
      have there := Option.isSome_of_eq_some (modes t List.mem_cons_self)
      rw [restoreEach_cons, run_bind (run_restoreMode may there)]
      refine ih once fun t' mem => ?_
      have other : t' ≠ t := by
        rintro rfl
        exact out mem
      rw [setMode_other other]
      exact modes t' (List.mem_cons_of_mem t mem)

theorem run_import (lawful : R.Lawful) {imports : List SnapshotVersion}
    (same : toImport (entries.zip classes) = imports) (ready : Ready R s [] imports s)
    (writable : ∀ v ∈ imports, readOnly (s.mode v.subject) = false)
    (may : ∀ v ∈ imports, R.modesChange = true) :
    ∃ report u, (import_ entries classes).run (Registry.serve R) s = (.ok report, u) := by
  rw [import_]
  dsimp only
  rw [same]
  split_ifs with nothing
  · exact ⟨_, s, rfl⟩
  · obtain ⟨v, mem⟩ := List.exists_mem_of_ne_nil _ nothing
    have may := may v mem
    have writes : ∀ t ∈ subjectsOf imports, readOnly (s.mode t) = false := by
      intro t listed
      obtain ⟨w, mem, rfl⟩ := mem_subjectsOf.mp listed
      exact writable w mem
    rw [run_bind (run_writableModes writes)]
    rw [← same] at ready
    have none_ : Opened ⟨[], [], []⟩ s := ⟨List.nodup_nil, fun t none => (List.not_mem_nil none).elim⟩
    obtain ⟨st, u, ran, told, opened⟩ := run_importEntries lawful may ready none_
    rw [run_bind ran]
    obtain ⟨u', back⟩ := run_restoreEach may opened.once opened.modes
    rw [run_bind back, told]
    exact ⟨_, u', rfl⟩

theorem takeable_later (held : Progress R s known g) : ∀ {rest before now : List SnapshotVersion},
    Takeable R s before rest → (∀ r, Available s before r → Available g now r) →
      Takeable R g now (rest.filter fun v => v ∉ known) := by
  intro rest
  induction rest with
  | nil => exact fun _ _ => trivial
  | cons v rest ih =>
      intro before now takeable more
      obtain ⟨valid, refers, later⟩ := takeable
      by_cases there : v ∈ known
      · rw [List.filter_cons_of_neg (by simpa using there)]
        refine ih later fun r available => ?_
        rcases available with old | ⟨w, mem, same⟩
        · exact more r (.inl old)
        · rcases List.mem_append.mp mem with earlier | last
          · exact more r (.inr ⟨w, earlier, same⟩)
          · obtain rfl := List.mem_singleton.mp last
            exact .inl ((held.available r).mpr (.inr ⟨w, there, same⟩))
      · rw [List.filter_cons_of_pos (by simpa using there)]
        refine ⟨valid, fun r mem => more r (refers r mem), ih later fun r available => ?_⟩
        have grows {w : SnapshotVersion} (mem : w ∈ now) : w ∈ now ++ [v] := List.mem_append_left _ mem
        have still : Available g now r → Available g (now ++ [v]) r :=
          Or.imp id fun there => there.imp fun w found => ⟨grows found.1, found.2⟩
        rcases available with old | ⟨w, mem, same⟩
        · exact still (more r (.inl old))
        · rcases List.mem_append.mp mem with earlier | last
          · exact still (more r (.inr ⟨w, earlier, same⟩))
          · exact .inr ⟨w, List.mem_append_right _ last, same⟩

theorem ready_later (classified : Classified R s entries classes)
    (keys : (entries.map SnapshotVersion.key).Nodup) (apart : Distinguished R s entries)
    (held : Progress R s known g) (again : List.Forall₂ (Agrees R g) entries
      ((entries.zip classes).map (classOn known)))
    (takeable : Takeable R s [] (toImport (entries.zip classes))) :
    Ready R g [] (toImport (entries.zip ((entries.zip classes).map (classOn known)))) g := by
  have fewer : toImport (entries.zip ((entries.zip classes).map (classOn known))) =
      (toImport (entries.zip classes)).filter fun v => v ∉ known := by
    rw [zip_zip_map, toImport_classOn]
  refine ⟨.here, ?_, ?_, fun v mem => (mem_imports again mem).2.1, ?_⟩
  · exact fresh_imports again keys
  · rw [fewer]
    refine takeable_later held takeable fun r available => ?_
    rcases available with old | ⟨w, none, -⟩
    · exact .inl ((held.available r).mpr (.inl old))
    · cases none
  · rw [List.nil_append, fewer]
    have once : ((toImport (entries.zip classes)).filter fun v => v ∉ known).Nodup :=
      (List.Nodup.of_map _ (fresh_imports classified.agree keys).distinct).filter _
    refine once.map_on fun v mem w mem' same => ?_
    obtain ⟨listed, absent, -⟩ := mem_imports classified.agree (List.mem_filter.mp mem').1
    have listed' := (mem_imports classified.agree (List.mem_filter.mp mem).1).1
    exact apart.byId w listed absent v listed' same

theorem completes_later (lawful : R.Lawful) (well : s.WellFormed)
    (classified : Classified R s entries classes) (keys : (entries.map SnapshotVersion.key).Nodup)
    (apart : Distinguished R s entries) (held : Partway R s (toImport (entries.zip classes)) known g)
    (importable : Importable R s (toImport (entries.zip classes))) :
    ∃ report u, (import_ entries ((entries.zip classes).map (classOn known))).run
      (Registry.serve R) g = (.ok report, u) := by
  have again := classified_later lawful well classified keys apart held.progress held.within
  have ready := ready_later classified keys apart held.progress again.agree importable.takeable
  have within : ∀ v ∈ toImport (entries.zip ((entries.zip classes).map (classOn known))),
      v ∈ toImport (entries.zip classes) := by
    intro v mem
    rw [zip_zip_map, toImport_classOn] at mem
    exact (List.mem_filter.mp mem).1
  refine run_import lawful rfl ready (fun v mem => ?_) fun v mem => importable.may v (within v mem)
  have was := importable.writable v (within v mem)
  rw [Registry.mode] at was ⊢
  rw [held.progress.globalMode]
  rcases held.modes v.subject with same | ⟨imports, -⟩
  · rwa [same]
  · rw [imports, Option.getD_some]
    decide

end

/-- Wherever an import of these entries breaks off, they are classified again; and where it could
have completed, the second one does. -/
def Resumes (R : Rules) (g : Registry) (entries : List SnapshotVersion) : Prop :=
  ∀ classes, Reaches (Registry.faulty R) (classify entries) g (.done classes) g →
    ∀ q t, Reaches (Registry.faulty R) (import_ entries classes) g q t →
      ∃ classes', (classify entries).run (Registry.serve R) t = (.ok classes', t) ∧
        ((∃ report u, (import_ entries classes).run (Registry.serve R) g = (.ok report, u)) →
          ∃ report u, (import_ entries classes').run (Registry.serve R) t = (.ok report, u))

/-- The registry holds the version under its own subject, version and ID, with its content. -/
def Registry.Holds (R : Rules) (g : Registry) (v : SnapshotVersion) : Prop :=
  (∃ h ∈ g.held, h.subject = v.subject ∧ h.version = v.version ∧ h.id = v.id) ∧
    ∃ c, g.schemas v.id = some c ∧ R.same c v.content = true

section

variable {R : Rules} {s g : Registry} {entries known : List SnapshotVersion} {classes : List Class}

theorem holds_of_progress (classified : Classified R s entries classes)
    (held : Progress R s (toImport (entries.zip classes)) g) : ∀ v ∈ entries, g.Holds R v := by
  intro v listed
  obtain ⟨c, paired⟩ : ∃ c, (v, c) ∈ entries.zip classes := by
    have first : (entries.zip classes).map Prod.fst = entries :=
      List.map_fst_zip classified.agree.length_eq.le
    rw [← first] at listed
    obtain ⟨⟨w, c⟩, there, rfl⟩ := List.mem_map.mp listed
    exact ⟨c, there⟩
  have agrees := (agrees_of_mem classified.agree paired).2
  cases c with
  | import_ =>
      have mem := mem_toImport.mpr paired
      refine ⟨⟨v.row, ?_, rfl, rfl, rfl⟩, held.taken v mem⟩
      rw [held.held]
      exact List.mem_append_right _ (List.mem_map_of_mem mem)
  | present =>
      obtain ⟨there, h, found, id, version⟩ := agrees
      have fits := List.find?_some found
      rw [Bool.and_eq_true, decide_eq_true_eq, Option.any_eq_true] at fits
      obtain ⟨own, c, is, same⟩ := fits
      rw [id] at is
      refine ⟨⟨h, ?_, own, version, id⟩, c, ?_, same⟩
      · rw [held.held]
        exact List.mem_append_left _ (List.mem_of_find?_eq_some found)
      · rw [held.schemas_of_some there, is]

theorem classified_of_reaches
    (reached : Reaches (Registry.faulty R) (classify entries) s (.done classes) g) :
    g = s ∧ Classified R s entries classes := by
  have ended := (reads_classify entries).reaches reached
  exact ⟨ended.1, ended.2 classes rfl⟩

end

/-- For the closure of a snapshot: classifying and reading the modes only ask; an import
sends the registrations of its own entries and its subjects' modes, and on every exit a mode is as
it was or named; an import that ends well leaves every entry held; and where the versions it is
to register are distinguished, one that broke off is resumed. -/
theorem import_its_own_and_resumed {R : Rules} (lawful : R.Lawful) (snapshot : Snapshot)
    (needed : List UInt32) {g : Registry} (well : g.WellFormed) :
    (∀ request next t, Reaches (Registry.faulty R) (classify (closure snapshot needed)) g
      (.ask request next) t → request.reads = true) ∧
    (∀ subjects request next t, Reaches (Registry.faulty R) (writableModes subjects) g
      (.ask request next) t → request.reads = true) ∧
    (∀ classes t, Reaches (Registry.faulty R) (classify (closure snapshot needed)) g (.done classes) t →
      t = g ∧
      (∀ request next t, Reaches (Registry.faulty R) (import_ (closure snapshot needed) classes) g
        (.ask request next) t →
          OwnRequest (toImport ((closure snapshot needed).zip classes)) request) ∧
      (∀ e t, Reaches (Registry.faulty R) (import_ (closure snapshot needed) classes) g (.stop e) t →
        ∀ subject, t.modes subject = g.modes subject ∨ ∃ reasons after told,
          e = .modeNotRestored (joined reasons) after ∧
            notPutBack subject (g.modes subject) told ∈ reasons) ∧
      (∀ report t, Reaches (Registry.faulty R) (import_ (closure snapshot needed) classes) g
        (.done report) t → t.modes = g.modes ∧ (∀ v ∈ closure snapshot needed, t.Holds R v) ∧
          report.imported =
            (toImport ((closure snapshot needed).zip classes)).map SnapshotVersion.imported)) ∧
    (Distinguished R g (closure snapshot needed) → Resumes R g (closure snapshot needed)) := by
  have keys := closure_distinct snapshot needed
  have classifyReads : (classify (closure snapshot needed)).Meets
      (fun _ request => request.reads = true) (fun _ _ => True) [] :=
    classify_asks (fun _ reads => reads) _
  have modesRead (subjects : List String) : (writableModes subjects).Meets
      (fun _ request => request.reads = true) (fun _ _ => True) [] :=
    writableModes_asks (fun _ reads => reads) _
  have only {α : Type} {p : Pass α} (reads : p.Meets (fun _ request => request.reads = true)
      (fun _ _ => True) []) (request : Request) (next : Answer request → Pass α) (t : Registry)
      (reached : Reaches (Registry.faulty R) p g (.ask request next) t) : request.reads = true := by
    have asked := Reaches.asks reads reached
    exact asked
  refine ⟨only classifyReads, fun subjects => only (modesRead subjects), fun classes t ended => ?_,
    fun apart classes ended q t reached => ?_⟩
  · obtain ⟨same, classified⟩ := classified_of_reaches ended
    have safe := safe_import lawful (fresh_imports classified.agree keys)
    refine ⟨same, fun _ _ _ reached => Reaches.asks (import_asks _ _) reached, fun e t reached => ?_,
      fun report t reached => ?_⟩
    · exact (safe.reaches reached).2.1
    · obtain ⟨held, modes, imported⟩ := (safe.reaches reached).2.1
      exact ⟨modes, holds_of_progress classified held, imported⟩
  · obtain ⟨-, classified⟩ := classified_of_reaches ended
    have safe := safe_import lawful (fresh_imports classified.agree keys)
    obtain ⟨known, held⟩ := (safe.reaches reached).kept
    have again := classified_later lawful well classified keys apart held.progress held.within
    refine ⟨_, run_classify again, fun first => ?_⟩
    obtain ⟨report, u, ran⟩ := first
    have importable := (safe.run (fun _ _ => .inl rfl) ran).2.2 report rfl
    exact completes_later lawful well classified keys apart held importable

def byText : Rules where
  same a b := decide (a = b)
  valid _ := true
  modesChange := true
  message _ := ""

theorem byText_lawful : byText.Lawful where
  refl _ := decide_eq_true rfl
  symm _ _ same := decide_eq_true (of_decide_eq_true same).symm
  trans _ _ _ first second := decide_eq_true ((of_decide_eq_true first).trans (of_decide_eq_true second))

def emptyRegistry : Registry := ⟨fun _ => none, [], "READWRITE", fun _ => none⟩

theorem emptyRegistry_wellFormed : emptyRegistry.WellFormed :=
  ⟨fun _ none => (List.not_mem_nil none).elim, List.nodup_nil⟩

def subjectVersion (subject : String) (id : UInt32) : SnapshotVersion :=
  ⟨subject, 1, id, "AVRO", "\"string\"", [], false⟩

theorem one_subject_resumes :
    Resumes byText emptyRegistry (closure ⟨1, [subjectVersion "orders-value" 7]⟩ [7]) := by
  refine (import_its_own_and_resumed byText_lawful _ _ emptyRegistry_wellFormed).2.2.2 ?_
  have entries : closure ⟨1, [subjectVersion "orders-value" 7]⟩ [7] = [subjectVersion "orders-value" 7] := by
    decide +kernel
  rw [entries]
  constructor
  · intro v mem _ w mem' _
    rw [List.mem_singleton.mp mem, List.mem_singleton.mp mem']
  · intro v mem _ w mem' _ _
    rw [List.mem_singleton.mp mem, List.mem_singleton.mp mem']

def sharedId : List SnapshotVersion :=
  closure ⟨1, [subjectVersion "orders-value" 7, subjectVersion "refunds-value" 7]⟩ [7]

/-- Two subjects share an ID.  The import breaks off when the first has been registered, after
six requests, and the second is refused from then on. -/
theorem shared_id_is_refused : ¬Resumes byText emptyRegistry sharedId := by
  intro resumes
  have classified : (classify sharedId).run (Registry.serve byText) emptyRegistry =
      (.ok [.import_, .import_], emptyRegistry) := by
    refine run_classify ⟨?_, fun h none => (List.not_mem_nil none).elim⟩
    have entries : sharedId = [subjectVersion "orders-value" 7, subjectVersion "refunds-value" 7] := by
      decide +kernel
    rw [entries]
    exact .cons ⟨rfl, rfl⟩ (.cons ⟨rfl, rfl⟩ .nil)
  have given (g : Registry) (request : Request) : Registry.faulty byText g request
      (g.serve byText request).1 (g.serve byText request).2 := .inl rfl
  obtain ⟨classes, again, -⟩ := resumes _ (reaches_run given classified) _ _
    (reaches_after given 6 (import_ sharedId [.import_, .import_]) emptyRegistry)
  have refused : ((classify sharedId).run (Registry.serve byText)
      ((import_ sharedId [.import_, .import_]).after (Registry.serve byText) 6 emptyRegistry).2).1.isOk
        = false := by
    decide +kernel
  rw [again] at refused
  cases refused

end Logweir.SchemaRegistry
