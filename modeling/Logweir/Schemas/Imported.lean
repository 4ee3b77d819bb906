import Logweir.Schemas.Classified

/-!
# What an import leaves

Every state an import passes through is the registry it began with and the versions of some
of the entries to import, each registered whole, with the modes of their subjects at most at
`IMPORT`.  However it ends, a subject's mode is as it was, or the refusal says it is not.
-/

set_option autoImplicit false

namespace Logweir.SchemaRegistry

open Logweir.Json Logweir.Text Logweir.Results Logweir.Programs Logweir.Programs.Program

/-- A request that an import of these versions may send. -/
def OwnRequest (imports : List SnapshotVersion) : Request → Prop
  | .putMode subject _ => ∃ v ∈ imports, v.subject = subject
  | .deleteMode subject => ∃ v ∈ imports, v.subject = subject
  | .register subject body id version =>
      ∃ v ∈ imports, v.subject = subject ∧ v.content = body ∧ v.id = id ∧ v.version = version
  | request => request.reads = true

section

variable {α : Type} {asks : Request → Prop} {log : List (Event Request Answer)}

theorem meets_orStop {r : Except ImportRefusal α} {ends : List (Event Request Answer) → α → Prop}
    (holds : ∀ a, r = .ok a → ends log a) : (orStop r : Pass α).Meets (fun _ => asks) ends log := by
  cases r with
  | error e => exact meets_stop
  | ok a => exact meets_pure (holds a rfl)

theorem meets_send {request : Request} {f : Nat × Json → Pass α} (asked : asks request)
    (rest : ∀ got log', (f got).Meets (fun _ => asks) (fun _ _ => True) log') :
    (send request >>= f).Meets (fun _ => asks) (fun _ _ => True) log := by
  have sent : (send request).Meets (fun _ => asks) (fun _ _ => True) log :=
    meets_ask asked fun _ => meets_orStop fun _ _ => trivial
  exact meets_bind sent fun log' got _ => rest got log'

theorem meets_then {β : Type} {p : Pass α} {f : α → Pass β}
    (first : p.Meets (fun _ => asks) (fun _ _ => True) log)
    (rest : ∀ a log', (f a).Meets (fun _ => asks) (fun _ _ => True) log') :
    (p >>= f).Meets (fun _ => asks) (fun _ _ => True) log :=
  meets_bind first fun log' a _ => rest a log'

end

section

variable {log : List (Event Request Answer)} {asks : Request → Prop}
  (reads : ∀ request : Request, request.reads = true → asks request)

include reads

theorem classify_asks (entries : List SnapshotVersion) :
    (classify entries).Meets (fun _ => asks) (fun _ _ => True) log := by
  have one (v : SnapshotVersion) (log : List (Event Request Answer)) :
      (classifyOne v).Meets (fun _ => asks) (fun _ _ => True) log := by
    refine meets_send (reads _ rfl) fun got log' => ?_
    dsimp only
    split_ifs
    · exact meets_send (reads _ rfl) fun _ _ => meets_orStop fun _ _ => trivial
    · exact meets_send (reads _ rfl) fun _ _ => meets_orStop fun _ _ => trivial
    · exact meets_stop
  have each : ∀ (entries : List SnapshotVersion) (log : List (Event Request Answer)),
      (classifyEach entries).Meets (fun _ => asks) (fun _ _ => True) log := by
    intro entries
    induction entries with
    | nil => exact fun _ => trivial
    | cons v entries ih =>
        exact fun log => meets_then (one v log) fun _ log' => meets_then (ih log') fun _ _ => trivial
  have subjects : ∀ (subjects : List String) (log : List (Event Request Answer)),
      (checkSubjects entries subjects).Meets (fun _ => asks) (fun _ _ => True) log := by
    intro subjects
    induction subjects with
    | nil => exact fun _ => trivial
    | cons s subjects ih =>
        refine fun log => meets_then (meets_send (reads _ rfl) fun got log' => ?_) fun _ log' => ih log'
        dsimp only
        split
        · trivial
        · exact meets_orStop fun _ _ => trivial
  exact meets_then (each entries log) fun _ log' => meets_then (subjects _ log') fun _ _ => trivial

theorem writableModes_asks (subjects : List String) :
    (writableModes subjects).Meets (fun _ => asks) (fun _ _ => True) log := by
  have own (s : String) (log : List (Event Request Answer)) :
      (ownMode s).Meets (fun _ => asks) (fun _ _ => True) log := by
    refine meets_send (reads _ rfl) fun got log' => ?_
    dsimp only
    split_ifs
    · split
      · trivial
      · exact meets_stop
    · trivial
    · exact meets_stop
  have each (global : String) : ∀ (subjects : List String) (log : List (Event Request Answer)),
      (writableEach global subjects).Meets (fun _ => asks) (fun _ _ => True) log := by
    intro subjects
    induction subjects with
    | nil => exact fun _ => trivial
    | cons s subjects ih =>
        refine fun log => meets_then (own s log) fun mode log' => ?_
        dsimp only
        split_ifs
        · exact meets_stop
        · exact meets_then (ih log') fun _ _ => trivial
  cases subjects with
  | nil => trivial
  | cons first subjects =>
      refine meets_send (reads _ rfl) fun got log' => ?_
      dsimp only
      split
      · exact meets_stop
      · exact each _ _ _

end

theorem restoreMode_asks {imports : List SnapshotVersion} {subject : String}
    {before : Option String} {log : List (Event Request Answer)}
    (own : ∃ v ∈ imports, v.subject = subject) :
    (restoreMode subject before).Meets (fun _ => OwnRequest imports) (fun _ _ => True) log := by
  cases before with
  | some mode =>
      refine meets_ask own fun answer => ?_
      split
      · split_ifs <;> trivial
      · trivial
  | none =>
      refine meets_ask own fun answer => ?_
      split
      · split_ifs <;> trivial
      · trivial

theorem importEntry_asks {imports : List SnapshotVersion} {v : SnapshotVersion} {opened : Bool}
    {log : List (Event Request Answer)} (own : v ∈ imports) :
    (importEntry v opened).Meets (fun _ => OwnRequest imports) (fun _ _ => True) log := by
  have registers (log : List (Event Request Answer)) :
      (registerVersion v).Meets (fun _ => OwnRequest imports) (fun _ _ => True) log := by
    refine meets_send ⟨v, own, rfl, rfl, rfl, rfl⟩ fun got log' => ?_
    dsimp only
    split_ifs
    · exact meets_stop
    · trivial
  have opens : (openSubject v).Meets (fun _ => OwnRequest imports) (fun _ _ => True) log := by
    refine meets_send ⟨v, own, rfl⟩ fun got log' => ?_
    dsimp only
    split_ifs
    · exact meets_stop
    · refine meets_send rfl fun got log' => ?_
      split_ifs
      · exact meets_stop
      · trivial
  cases opened with
  | true => exact registers log
  | false => exact meets_then opens fun _ log' => registers log'

theorem mem_toImport {entries : List (SnapshotVersion × Class)} {v : SnapshotVersion} :
    v ∈ toImport entries ↔ (v, .import_) ∈ entries := by
  simp [toImport]

theorem toImport_cons (v : SnapshotVersion) (rest : List (SnapshotVersion × Class)) :
    toImport ((v, .import_) :: rest) = v :: toImport rest := by
  simp [toImport]

theorem toImport_skip {v : SnapshotVersion} {c : Class} (rest : List (SnapshotVersion × Class))
    (skipped : c ≠ .import_) : toImport ((v, c) :: rest) = toImport rest := by
  simp [toImport, skipped]

def Importing.entering (st : Importing) (subject : String) : Importing :=
  if decide (subject ∈ st.importing) then st
  else { st with importing := insertSubject subject st.importing }

def Importing.registered (st : Importing) (v : SnapshotVersion) : Importing :=
  { st with imported := st.imported ++ [v.imported] }

def Importing.left (st : Importing) (subject : String) : Except String Unit → Importing
  | .ok () => { st with importing := st.importing.erase subject }
  | .error why =>
      { st with importing := st.importing.erase subject, notRestored := st.notRestored ++ [why] }

def proceed (before : String → Option String) (v : SnapshotVersion)
    (rest : List (SnapshotVersion × Class)) (st : Importing) :
    Pass (Importing × Except ImportRefusal Unit) :=
  if importsLater v.subject rest then importEntries before rest st
  else restoreMode v.subject (before v.subject) >>= fun r => importEntries before rest (st.left v.subject r)

theorem importEntries_skip {before : String → Option String} {v : SnapshotVersion} {c : Class}
    {rest : List (SnapshotVersion × Class)} {st : Importing} (skipped : c ≠ .import_) :
    importEntries before ((v, c) :: rest) st = importEntries before rest st := by
  rw [importEntries, if_pos skipped]

theorem importEntries_import {before : String → Option String} {v : SnapshotVersion}
    {rest : List (SnapshotVersion × Class)} {st : Importing} :
    importEntries before ((v, .import_) :: rest) st =
      ((importEntry v (decide (v.subject ∈ st.importing))).attempt : Pass (Except ImportRefusal Unit))
        >>= fun r => match r with
          | .error e => pure (st.entering v.subject, .error e)
          | .ok () => proceed before v rest ((st.entering v.subject).registered v) := by
  rw [importEntries, if_neg (by simp)]
  refine congrArg _ (funext fun r => ?_)
  cases r with
  | error e => rfl
  | ok _ =>
      change (if importsLater v.subject rest = true then _ else _ >>= _) = proceed _ _ _ _
      rw [proceed]
      refine if_congr Iff.rfl rfl (congrArg _ (funext fun r => ?_))
      cases r <;> rfl

theorem restoreEach_cons {before : String → Option String} {s : String}
    {subjects notRestored : List String} :
    restoreEach before (s :: subjects) notRestored =
      restoreMode s (before s) >>= fun r => restoreEach before subjects (match r with
        | .ok () => notRestored
        | .error why => notRestored ++ [why]) := by
  rw [restoreEach]
  refine congrArg _ (funext fun r => ?_)
  cases r <;> rfl

theorem mem_entering {st : Importing} {s t : String} :
    t ∈ (st.entering s).importing ↔ t = s ∨ t ∈ st.importing := by
  rw [Importing.entering]
  split_ifs with opened
  · have there := of_decide_eq_true opened
    constructor
    · exact .inr
    · rintro (rfl | mem)
      · exact there
      · exact mem
  · exact mem_insertSubject

theorem mem_left {st : Importing} {s t : String} {r : Except String Unit}
    (mem : t ∈ (st.left s r).importing) : t ∈ st.importing := by
  cases r <;> exact List.mem_of_mem_erase mem

theorem importEntries_asks {before : String → Option String} {imports : List SnapshotVersion} :
    ∀ {entries : List (SnapshotVersion × Class)} {st : Importing} {log : List (Event Request Answer)},
      (∀ v ∈ toImport entries, v ∈ imports) →
      (∀ s ∈ st.importing, ∃ v ∈ imports, v.subject = s) →
        (importEntries before entries st).Meets (fun _ => OwnRequest imports)
          (fun _ r => ∀ s ∈ r.1.importing, ∃ v ∈ imports, v.subject = s) log := by
  intro entries
  induction entries with
  | nil => exact fun _ opened => meets_pure opened
  | cons e rest ih =>
      obtain ⟨v, c⟩ := e
      intro st log listed opened
      by_cases skipped : c = .import_
      · subst skipped
        rw [toImport_cons] at listed
        rw [importEntries_import]
        have own : v ∈ imports := listed v List.mem_cons_self
        have later : ∀ w ∈ toImport rest, w ∈ imports := fun w mem => listed w (List.mem_cons_of_mem v mem)
        have opened' : ∀ s ∈ (st.entering v.subject).importing, ∃ v ∈ imports, v.subject = s := by
          intro s mem
          rcases mem_entering.mp mem with rfl | before
          · exact ⟨v, own, rfl⟩
          · exact opened s before
        refine meets_bind (meets_attempt (importEntry_asks own)) fun log' r _ => ?_
        cases r with
        | error e => exact meets_pure opened'
        | ok _ =>
            simp only [proceed]
            split_ifs
            · exact ih later opened'
            · refine meets_bind (restoreMode_asks ⟨v, own, rfl⟩) fun log' r _ => ih later ?_
              intro s mem
              have there : s ∈ ((st.entering v.subject).registered v).importing := mem_left mem
              exact opened' s there
      · rw [toImport_skip rest skipped] at listed
        rw [importEntries_skip skipped]
        exact ih listed opened

theorem restoreEach_asks {before : String → Option String} {imports : List SnapshotVersion} :
    ∀ {subjects notRestored : List String} {log : List (Event Request Answer)},
      (∀ s ∈ subjects, ∃ v ∈ imports, v.subject = s) →
        (restoreEach before subjects notRestored).Meets (fun _ => OwnRequest imports)
          (fun _ _ => True) log := by
  intro subjects
  induction subjects with
  | nil => exact fun _ => trivial
  | cons s subjects ih =>
      intro notRestored log own
      have later : ∀ t ∈ subjects, ∃ v ∈ imports, v.subject = t :=
        fun t mem => own t (List.mem_cons_of_mem s mem)
      rw [restoreEach_cons]
      exact meets_then (restoreMode_asks (own s List.mem_cons_self)) fun r log' => ih later

theorem import_asks (entries : List SnapshotVersion) (classes : List Class) :
    (import_ entries classes).Meets (fun _ => OwnRequest (toImport (entries.zip classes)))
      (fun _ _ => True) [] := by
  have reads : ∀ request : Request, request.reads = true →
      OwnRequest (toImport (entries.zip classes)) request := by
    intro request reads
    cases request with
    | putMode subject mode => cases reads
    | deleteMode subject => cases reads
    | register subject body id version => cases reads
    | _ => rfl
  rw [import_]
  dsimp only
  split_ifs
  · trivial
  · refine meets_then (writableModes_asks reads _) fun modes log' => ?_
    refine meets_bind (importEntries_asks (fun _ mem => mem) fun s none => (List.not_mem_nil none).elim)
      fun log' r opened => ?_
    refine meets_then (restoreEach_asks opened) fun notRestored log' => ?_
    exact meets_orStop fun _ _ => trivial

def SnapshotVersion.row (v : SnapshotVersion) : Held := ⟨v.subject, v.version, v.id, false⟩

/-- A registry in which these versions have been registered since. -/
structure Progress (R : Rules) (s : Registry) (known : List SnapshotVersion) (g : Registry) : Prop where
  held : g.held = s.held ++ known.map SnapshotVersion.row
  schemas : ∀ i, g.schemas i =
    (s.schemas i).or ((known.find? fun v => v.id = i).map SnapshotVersion.content)
  taken : ∀ v ∈ known, ∃ c, g.schemas v.id = some c ∧ R.same c v.content = true
  globalMode : g.globalMode = s.globalMode

/-- And at most the modes of the subjects to import are at `IMPORT`. -/
structure Partway (R : Rules) (s : Registry) (imports known : List SnapshotVersion) (g : Registry) :
    Prop where
  within : known ⊆ imports
  progress : Progress R s known g
  modes : ∀ subject, g.modes subject = s.modes subject ∨
    (g.modes subject = some "IMPORT" ∧ ∃ v ∈ imports, v.subject = subject)

/-- Versions the registry does not hold, none of them twice. -/
structure Fresh (s : Registry) (imports : List SnapshotVersion) : Prop where
  distinct : (imports.map SnapshotVersion.key).Nodup
  absent : ∀ v ∈ imports, s.find v.subject v.version = none

section

variable {R : Rules} {s g : Registry} {imports known : List SnapshotVersion} {v : SnapshotVersion}

theorem Progress.here : Progress R s [] s where
  held := by simp
  schemas i := by simp
  taken v mem := (List.not_mem_nil mem).elim
  globalMode := rfl

theorem Partway.here : Partway R s imports [] s where
  within := List.nil_subset _
  progress := .here
  modes _ := .inl rfl

theorem Progress.setMode (held : Progress R s known g) (subject : String) (mode : Option String) :
    Progress R s known (g.setMode subject mode) :=
  ⟨held.held, held.schemas, held.taken, held.globalMode⟩

theorem setMode_other {subject other : String} {mode : Option String} (differ : other ≠ subject) :
    (g.setMode subject mode).modes other = g.modes other := if_neg differ

@[simp] theorem setMode_same {subject : String} {mode : Option String} :
    (g.setMode subject mode).modes subject = mode := if_pos rfl

theorem setMode_self {subject : String} : g.setMode subject (g.modes subject) = g := by
  have same : (fun s => if s = subject then g.modes subject else g.modes s) = g.modes := by
    funext s
    split_ifs with own
    · rw [own]
    · rfl
  rw [Registry.setMode, same]

theorem Partway.setMode (held : Partway R s imports known g) {subject : String}
    {mode : Option String} (own : ∃ v ∈ imports, v.subject = subject)
    (either : mode = s.modes subject ∨ mode = some "IMPORT") :
    Partway R s imports known (g.setMode subject mode) where
  within := held.within
  progress := held.progress.setMode subject mode
  modes other := by
    by_cases same : other = subject
    · subst same
      rw [setMode_same]
      exact either.imp id fun set => ⟨set, own⟩
    · rw [setMode_other same]
      exact held.modes other

theorem find_none {subject : String} {version : UInt32} :
    g.find subject version = none ↔ ∀ h ∈ g.held, ¬(h.subject = subject ∧ h.version = version) := by
  simp [Registry.find]

theorem Fresh.not_held (fresh : Fresh s (known ++ [v])) (held : Progress R s known g) :
    ∀ h ∈ g.held, ¬(h.subject = v.subject ∧ h.version = v.version) := by
  intro h there same
  rw [held.held] at there
  rcases List.mem_append.mp there with old | new
  · exact find_none.mp (fresh.absent v (by simp)) h old same
  · obtain ⟨w, mem, rfl⟩ := List.mem_map.mp new
    have apart := fresh.distinct
    rw [List.map_append, List.nodup_append] at apart
    refine apart.2.2 w.key (List.mem_map_of_mem mem) v.key (by simp) ?_
    exact Prod.ext same.1 same.2

theorem Progress.add (lawful : R.Lawful) (held : Progress R s known g)
    (fresh : Fresh s (known ++ [v])) (takes : g.takes R v.content v.id = true) :
    Progress R s (known ++ [v]) (g.add v.subject v.content v.id v.version) := by
  simp only [Registry.takes, Bool.and_eq_true] at takes
  obtain ⟨-, fits⟩ := takes
  have stays : g.held.filter (fun h => !(h.subject = v.subject && h.version = v.version)) = g.held := by
    refine List.filter_eq_self.mpr fun h there => ?_
    have other := fresh.not_held held h there
    simpa [imp_iff_not_or] using other
  have byId : ∀ i, (g.add v.subject v.content v.id v.version).schemas i =
      if i = v.id then (g.schemas v.id).or (some v.content) else g.schemas i := fun _ => rfl
  refine ⟨?_, fun i => ?_, fun w mem => ?_, held.globalMode⟩
  · change g.held.filter _ ++ [v.row] = _
    rw [stays, held.held, List.map_append, List.append_assoc]
    rfl
  · rw [byId, List.find?_append]
    split_ifs with own
    · subst own
      rw [held.schemas]
      cases s.schemas v.id <;> cases known.find? (fun w => w.id = v.id) <;> simp
    · rw [held.schemas, List.find?_cons_of_neg (by simpa using fun same => own same.symm)]
      simp
  · rcases List.mem_append.mp mem with before | last
    · obtain ⟨c, is, same⟩ := held.taken w before
      refine ⟨c, ?_, same⟩
      rw [byId]
      split_ifs with own
      · rw [← own, is]
        rfl
      · exact is
    · rw [List.mem_singleton.mp last, byId, if_pos rfl]
      cases now : g.schemas v.id with
      | none => exact ⟨v.content, rfl, lawful.refl _⟩
      | some c =>
          rw [now] at fits
          exact ⟨c, rfl, by simpa using fits⟩

theorem Partway.add (lawful : R.Lawful) (held : Partway R s imports known g)
    (fresh : Fresh s (known ++ [v])) (own : v ∈ imports) (takes : g.takes R v.content v.id = true) :
    Partway R s imports (known ++ [v]) (g.add v.subject v.content v.id v.version) where
  within w mem := by
    rcases List.mem_append.mp mem with before | last
    · exact held.within before
    · exact List.mem_singleton.mp last ▸ own
  progress := held.progress.add lawful fresh takes
  modes := held.modes

end

def OnTheWay (R : Rules) (s : Registry) (imports : List SnapshotVersion) (g : Registry) : Prop :=
  ∃ known, Partway R s imports known g

section

variable {R : Rules} {s g : Registry} {imports known : List SnapshotVersion} {v : SnapshotVersion}

theorem safe_openSubject (held : Partway R s imports known g) (own : v ∈ imports) :
    (openSubject v).Safe (Registry.faulty R) (OnTheWay R s imports)
      (fun g' r => (∃ mode, g' = g.setMode v.subject mode ∧
        (mode = g.modes v.subject ∨ mode = some "IMPORT")) ∧ (r = .ok () → R.modesChange = true)) g := by
  have imported : Partway R s imports known (g.setMode v.subject (some "IMPORT")) :=
    held.setMode ⟨v, own, rfl⟩ (.inr rfl)
  have leaves : ∀ g', (g' = g ∨ g' = g.setMode v.subject (some "IMPORT")) →
      OnTheWay R s imports g' ∧ ∃ mode, g' = g.setMode v.subject mode ∧
        (mode = g.modes v.subject ∨ mode = some "IMPORT") := by
    intro g' either
    rcases either with rfl | rfl
    · exact ⟨⟨known, held⟩, _, setMode_self.symm, .inl rfl⟩
    · exact ⟨⟨known, imported⟩, _, rfl, .inr rfl⟩
  cases may : R.modesChange with
  | false =>
      have served : g.serve R (.putMode v.subject "IMPORT") = (refusal R 422 42205, g) := by
        simp only [Registry.serve, may, Bool.false_eq_true, if_false]
      refine safe_send ⟨known, held⟩ (fun e g' left => ?_) fun status body said => ?_
      · rw [served, or_self] at left
        obtain ⟨kept, ended⟩ := leaves g' (.inl left)
        exact ⟨kept, ended, not_ok⟩
      · rw [served] at said ⊢
        cases said
        obtain ⟨kept, ended⟩ := leaves g (.inl rfl)
        exact safe_stop kept ⟨ended, not_ok⟩
  | true =>
      have served : g.serve R (.putMode v.subject "IMPORT") =
          (.ok (200, .obj [("mode", .str "IMPORT")]), g.setMode v.subject (some "IMPORT")) := by
        simp only [Registry.serve, may, if_true]
      refine safe_send ⟨known, held⟩ (fun e g' left => ?_) fun status body said => ?_
      · rw [served] at left
        obtain ⟨kept, ended⟩ := leaves g' left
        exact ⟨kept, ended, not_ok⟩
      · rw [served]
        obtain ⟨kept, ended⟩ := leaves _ (.inr rfl)
        dsimp only
        split_ifs
        · exact safe_stop kept ⟨ended, not_ok⟩
        · refine safe_send kept (fun e g' left => ?_) fun status body said => ?_
          · rw [serve_reads rfl, or_self] at left
            subst left
            exact ⟨kept, ended, not_ok⟩
          · rw [serve_reads rfl]
            dsimp only
            split_ifs
            · exact safe_stop kept ⟨ended, not_ok⟩
            · exact safe_pure kept ⟨ended, fun _ => rfl⟩

theorem safe_registerVersion (lawful : R.Lawful) (held : Partway R s imports known g)
    (fresh : Fresh s (known ++ [v])) (own : v ∈ imports) :
    (registerVersion v).Safe (Registry.faulty R) (OnTheWay R s imports)
      (fun g' r => g'.modes = g.modes ∧ (r = .ok () → g.mode v.subject = "IMPORT" ∧
        g.takes R v.content v.id = true ∧ Partway R s imports (known ++ [v]) g')) g := by
  have served : (∃ code, g.serve R (.register v.subject v.content v.id v.version) =
      (refusal R 422 code, g)) ∨
      (g.mode v.subject = "IMPORT" ∧ g.takes R v.content v.id = true ∧
        g.serve R (.register v.subject v.content v.id v.version) =
          (.ok (200, .obj [("id", .num v.id.toNat)]),
            g.add v.subject v.content v.id v.version)) := by
    simp only [Registry.serve]
    split_ifs with closed refused
    · exact .inl ⟨_, rfl⟩
    · exact .inl ⟨_, rfl⟩
    · refine .inr ⟨not_not.mp closed, ?_, rfl⟩
      simpa using refused
  rcases served with ⟨code, same⟩ | ⟨mode, takes, same⟩
  · refine safe_send ⟨known, held⟩ (fun e g' left => ?_) fun status body said => ?_
    · rw [same, or_self] at left
      subst left
      exact ⟨⟨known, held⟩, rfl, not_ok⟩
    · rw [same] at said ⊢
      cases said
      dsimp only
      rw [if_pos (.inl (by decide))]
      exact safe_stop ⟨known, held⟩ ⟨rfl, not_ok⟩
  · have taken := held.add lawful fresh own takes
    refine safe_send ⟨known, held⟩ (fun e g' left => ?_) fun status body said => ?_
    · rw [same] at left
      rcases left with rfl | rfl
      · exact ⟨⟨known, held⟩, rfl, not_ok⟩
      · exact ⟨⟨_, taken⟩, rfl, not_ok⟩
    · rw [same]
      dsimp only
      split_ifs
      · exact safe_stop ⟨_, taken⟩ ⟨rfl, not_ok⟩
      · exact safe_pure ⟨_, taken⟩ ⟨rfl, fun _ => ⟨mode, takes, taken⟩⟩

/-- An entry's version is registered; its subject's mode may be left at `IMPORT`. -/
structure Entered (R : Rules) (s : Registry) (imports known : List SnapshotVersion)
    (v : SnapshotVersion) (opened : Bool) (g' : Registry) : Prop where
  partway : Partway R s imports (known ++ [v]) g'
  taken : ∃ u, Progress R s known u ∧ u.takes R v.content v.id = true
  may : opened = false → R.modesChange = true

theorem safe_importEntry (lawful : R.Lawful) (held : Partway R s imports known g)
    (fresh : Fresh s (known ++ [v])) (own : v ∈ imports) (opened : Bool) :
    (importEntry v opened).Safe (Registry.faulty R) (OnTheWay R s imports)
      (fun g' r => (∀ other, other ≠ v.subject → g'.modes other = g.modes other) ∧
        (r = .ok () → Entered R s imports known v opened g')) g := by
  have registers (u : Registry) (held : Partway R s imports known u)
      (same : ∀ other, other ≠ v.subject → u.modes other = g.modes other)
      (may : opened = false → R.modesChange = true) :
      (registerVersion v).Safe (Registry.faulty R) (OnTheWay R s imports)
        (fun g' r => (∀ other, other ≠ v.subject → g'.modes other = g.modes other) ∧
          (r = .ok () → Entered R s imports known v opened g')) u := by
    refine safe_mono (safe_registerVersion lawful held fresh own) fun g' r _ ended => ?_
    refine ⟨fun other differ => ?_, fun ok => ?_⟩
    · rw [ended.1, same other differ]
    · obtain ⟨-, takes, taken⟩ := ended.2 ok
      exact ⟨taken, ⟨u, held.progress, takes⟩, may⟩
  cases opened with
  | true => exact registers g held (fun _ _ => rfl) (by simp)
  | false =>
      refine safe_bind (safe_openSubject held own) (fun g' e _ set => ?_) fun g' _ _ set => ?_
      · obtain ⟨⟨mode, rfl, -⟩, -⟩ := set
        exact ⟨fun other differ => setMode_other differ, not_ok⟩
      · obtain ⟨⟨mode, rfl, either⟩, may⟩ := set
        refine registers _ (held.setMode ⟨v, own, rfl⟩ ?_) (fun other differ => setMode_other differ)
          fun _ => may rfl
        rcases either with rfl | import_
        · exact (held.modes v.subject).imp id And.left
        · exact .inr import_

def restoring (subject : String) : Option String → Request
  | some mode => .putMode subject mode
  | none => .deleteMode subject

theorem serve_restoring (subject : String) (before : Option String) :
    (g.serve R (restoring subject before) =
        ((g.serve R (restoring subject before)).1, g.setMode subject before)) ∨
      ∃ status code, g.serve R (restoring subject before) = (refusal R status code, g) ∧
        succeeded status = false := by
  cases before with
  | some mode =>
      simp only [restoring, Registry.serve]
      split
      · exact .inl rfl
      · exact .inr ⟨422, 42205, rfl, by decide⟩
  | none =>
      simp only [restoring, Registry.serve]
      split
      · split
        · exact .inl rfl
        · exact .inr ⟨422, 42205, rfl, by decide⟩
      · exact .inr ⟨404, NO_SUBJECT_MODE, rfl, by decide⟩

def restored (subject : String) (before : Option String) :
    Except String (Nat × Json) → Except String Unit
  | .ok (status, body) =>
      if succeeded status then .ok ()
      else .error (notPutBack subject before ("answered " ++ toString status ++ " " ++ jsonText body))
  | .error e => .error (notPutBack subject before e)

theorem restoreMode_eq (subject : String) (before : Option String) :
    restoreMode subject before =
      .ask (restoring subject before) fun answer => .done (restored subject before answer) := by
  cases before
  all_goals
    refine congrArg (Program.ask _) (funext fun answer => ?_)
    cases answer with
    | error e => rfl
    | ok got =>
        obtain ⟨status, body⟩ := got
        change (if succeeded status = true then _ else _) = _
        simp only [restored]
        split_ifs <;> rfl

theorem not_succeeded_of_failed {status : Nat} {body : Json} (failed : Failed (.ok (status, body))) :
    succeeded status = false := by
  simp only [Failed] at failed
  simp only [succeeded, Bool.and_eq_false_iff, decide_eq_false_iff_not]
  omega

theorem restored_error {subject : String} {before : Option String}
    {answer : Except String (Nat × Json)}
    (failed : ∀ status body, answer = .ok (status, body) → succeeded status = false) :
    ∃ told, restored subject before answer = .error (notPutBack subject before told) := by
  cases answer with
  | error e => exact ⟨_, rfl⟩
  | ok got =>
      obtain ⟨status, body⟩ := got
      rw [restored, failed status body rfl, if_neg Bool.false_ne_true]
      exact ⟨_, rfl⟩

/-- A mode put back, or said not to be, and nothing else changed. -/
structure PutBack (R : Rules) (s : Registry) (imports known : List SnapshotVersion) (g : Registry)
    (subject : String) (g' : Registry) (ended : Except String Unit) : Prop where
  partway : Partway R s imports known g'
  others : ∀ other, other ≠ subject → g'.modes other = g.modes other
  back : g'.modes subject = s.modes subject ∨
    ∃ told, ended = .error (notPutBack subject (s.modes subject) told)

theorem safe_restoreMode {subject : String} (held : Partway R s imports known g)
    (own : ∃ v ∈ imports, v.subject = subject) :
    (restoreMode subject (s.modes subject)).Safe (Registry.faulty R) (OnTheWay R s imports)
      (fun g' r => ∃ ended, r = .ok ended ∧ PutBack R s imports known g subject g' ended) g := by
  rw [restoreMode_eq]
  refine ⟨⟨known, held⟩, fun answer g' answered => ?_⟩
  have either : PutBack R s imports known g subject g'
      (restored subject (s.modes subject) answer) := by
    have back : PutBack R s imports known g subject (g.setMode subject (s.modes subject))
        (restored subject (s.modes subject) answer) :=
      ⟨held.setMode own (.inl rfl), fun other differ => setMode_other differ, .inl setMode_same⟩
    have stayed (failed : ∀ status body, answer = .ok (status, body) → succeeded status = false) :
        PutBack R s imports known g subject g (restored subject (s.modes subject) answer) :=
      ⟨held, fun _ _ => rfl, .inr (restored_error failed)⟩
    have served := serve_restoring (R := R) (g := g) subject (s.modes subject)
    rcases answered with whole | ⟨failed, left⟩
    · rcases served with same | ⟨status, code, same, refused⟩
      · rw [show g' = _ from congrArg Prod.snd (whole.trans same)]
        exact back
      · rw [show g' = g from congrArg Prod.snd (whole.trans same)]
        refine stayed fun status' body is => ?_
        have said : answer = refusal R status code := congrArg Prod.fst (whole.trans same)
        cases said.symm.trans is
        exact refused
    · have unanswered := stayed fun status body is => not_succeeded_of_failed (is ▸ failed)
      rcases left with rfl | rfl
      · exact unanswered
      · rcases served with same | ⟨status, code, same, refused⟩
        · rw [congrArg Prod.snd same]
          exact back
        · rw [congrArg Prod.snd same]
          exact unanswered
  exact ⟨⟨known, either.partway⟩, _, rfl, either⟩

end

/-- A subject's mode is as it was, or it is said that it is not. -/
def Told (s : Registry) (notRestored : List String) (g : Registry) (subject : String) : Prop :=
  g.modes subject = s.modes subject ∨
    ∃ told, notPutBack subject (s.modes subject) told ∈ notRestored

/-- A version that a schema can refer to. -/
def Available (s : Registry) (known : List SnapshotVersion) (r : SchemaReference) : Prop :=
  (s.find r.subject r.version).isSome ∨ ∃ w ∈ known, w.subject = r.subject ∧ w.version = r.version

/-- Each version parses, and what it refers to is held or registered before it. -/
def Takeable (R : Rules) (s : Registry) : List SnapshotVersion → List SnapshotVersion → Prop
  | _, [] => True
  | known, v :: rest =>
      R.valid v.content = true ∧ (∀ r ∈ v.references, Available s known r) ∧
        Takeable R s (known ++ [v]) rest

section

variable {R : Rules} {s g : Registry} {imports known : List SnapshotVersion} {v : SnapshotVersion}

theorem find_isSome_iff {subject : String} {version : UInt32} :
    (g.find subject version).isSome ↔ ∃ h ∈ g.held, h.subject = subject ∧ h.version = version := by
  simp [Registry.find]

theorem Progress.available (held : Progress R s known g) (r : SchemaReference) :
    (g.find r.subject r.version).isSome ↔ Available s known r := by
  rw [Available, find_isSome_iff, find_isSome_iff, held.held]
  simp only [List.mem_append, List.mem_map]
  constructor
  · rintro ⟨h, old | ⟨w, mem, rfl⟩, same⟩
    · exact .inl ⟨h, old, same⟩
    · exact .inr ⟨w, mem, same⟩
  · rintro (⟨h, old, same⟩ | ⟨w, mem, same⟩)
    · exact ⟨h, .inl old, same⟩
    · exact ⟨w.row, .inr ⟨w, mem, rfl⟩, same⟩

structure Looped (R : Rules) (s : Registry) (imports known entered : List SnapshotVersion)
    (st : Importing) (g' : Registry) (st' : Importing) (result : Except ImportRefusal Unit) : Prop where
  importing : ∀ t ∈ st'.importing, ∃ v ∈ imports, v.subject = t
  told : ∀ t, t ∉ st'.importing → Told s st'.notRestored g' t
  partway : result = .ok () → Partway R s imports (known ++ entered) g'
  imported : result = .ok () → st'.imported = st.imported ++ entered.map SnapshotVersion.imported
  takeable : result = .ok () → Takeable R s known entered
  may : result = .ok () → ∀ v ∈ entered, v.subject ∈ st.importing ∨ R.modesChange = true

theorem told_of_others {notRestored : List String} {g' : Registry} {t : String}
    (same : g'.modes t = g.modes t) (told : Told s notRestored g t) : Told s notRestored g' t :=
  told.imp same.trans id

theorem Told.mono {notRestored more : List String} {t : String} (told : Told s notRestored g t) :
    Told s (notRestored ++ more) g t :=
  told.imp id fun told => told.imp fun _ mem => List.mem_append_left more mem

theorem Looped.failed {entered : List SnapshotVersion} {st st' : Importing} {e : ImportRefusal}
    (importing : ∀ t ∈ st'.importing, ∃ v ∈ imports, v.subject = t)
    (told : ∀ t, t ∉ st'.importing → Told s st'.notRestored g t) :
    Looped R s imports known entered st g st' (.error e) where
  importing := importing
  told := told
  partway ok := not_ok ok
  imported ok := not_ok ok
  takeable ok := not_ok ok
  may ok := not_ok ok

theorem told_left {st : Importing} {subject : String} {g' : Registry} {r : Except String Unit}
    (told : ∀ t, t ∉ st.importing → Told s st.notRestored g t)
    (back : PutBack R s imports known g subject g' r) :
    ∀ t, t ∉ (st.left subject r).importing → Told s (st.left subject r).notRestored g' t := by
  intro t out
  by_cases own : t = subject
  · subst own
    refine back.back.imp id fun told => ?_
    obtain ⟨told, rfl⟩ := told
    exact ⟨told, List.mem_append_right _ (List.mem_singleton_self _)⟩
  · have before : t ∉ st.importing := by
      cases r <;> exact fun mem => out ((List.mem_erase_of_ne own).mpr mem)
    have still := told_of_others (back.others t own) (told t before)
    cases r with
    | ok _ => exact still
    | error why => exact still.mono

theorem Looped.cons {entered : List SnapshotVersion} {st mid : Importing} {g' : Registry}
    {st' : Importing} {result : Except ImportRefusal Unit}
    (rest : Looped R s imports (known ++ [v]) entered mid g' st' result)
    (entry : Entered R s imports known v (decide (v.subject ∈ st.importing)) g)
    (done : mid.imported = st.imported ++ [v.imported])
    (opened : ∀ t ∈ mid.importing, t = v.subject ∨ t ∈ st.importing) :
    Looped R s imports known (v :: entered) st g' st' result where
  importing := rest.importing
  told := rest.told
  partway ok := by
    have whole := rest.partway ok
    rwa [List.append_assoc] at whole
  imported ok := by
    rw [rest.imported ok, done, List.append_assoc]
    rfl
  takeable ok := by
    obtain ⟨u, held, takes⟩ := entry.taken
    simp only [Registry.takes, Bool.and_eq_true] at takes
    obtain ⟨⟨valid, resolves⟩, -⟩ := takes
    refine ⟨valid, fun r mem => ?_, rest.takeable ok⟩
    exact (held.available r).mp (List.all_eq_true.mp resolves r mem)
  may ok w mem := by
    have first : v.subject ∈ st.importing ∨ R.modesChange = true := by
      by_cases opened : v.subject ∈ st.importing
      · exact .inl opened
      · exact .inr (entry.may (decide_eq_false opened))
    rcases List.mem_cons.mp mem with rfl | later
    · exact first
    · rcases rest.may ok w later with there | may
      · rcases opened w.subject there with same | before
        · exact same ▸ first
        · exact .inl before
      · exact .inr may

theorem Fresh.first {rest : List SnapshotVersion} (fresh : Fresh s (known ++ v :: rest)) :
    Fresh s (known ++ [v]) ∧ Fresh s ((known ++ [v]) ++ rest) := by
  have whole : (known ++ [v]) ++ rest = known ++ v :: rest := by simp
  refine ⟨⟨?_, fun w mem => fresh.absent w ?_⟩, whole ▸ fresh⟩
  · have all := fresh.distinct
    rw [← whole, List.map_append, List.nodup_append] at all
    exact all.1
  · rw [← whole]
    exact List.mem_append_left rest mem

theorem safe_importEntries (lawful : R.Lawful) {before : String → Option String}
    (was : ∀ v ∈ imports, before v.subject = s.modes v.subject) :
    ∀ {entries : List (SnapshotVersion × Class)} {st : Importing} {known : List SnapshotVersion}
      {g : Registry}, Partway R s imports known g → Fresh s (known ++ toImport entries) →
      (∀ v ∈ toImport entries, v ∈ imports) → (∀ t ∈ st.importing, ∃ v ∈ imports, v.subject = t) →
      (∀ t, t ∉ st.importing → Told s st.notRestored g t) →
        (importEntries before entries st).Safe (Registry.faulty R) (OnTheWay R s imports)
          (fun g' r => ∃ st' result, r = .ok (st', result) ∧
            Looped R s imports known (toImport entries) st g' st' result) g := by
  intro entries
  induction entries with
  | nil =>
      intro st known g held _ _ opened told
      refine safe_pure ⟨known, held⟩ ⟨st, .ok (), rfl, opened, told, fun _ => ?_, fun _ => ?_, ?_, ?_⟩
      · rw [show toImport [] = [] from rfl, List.append_nil]
        exact held
      · exact (List.append_nil _).symm
      · exact fun _ => trivial
      · exact fun _ v none => (List.not_mem_nil none).elim
  | cons e rest ih =>
      obtain ⟨v, c⟩ := e
      intro st known g held fresh listed opened told
      by_cases skipped : c = .import_
      · subst skipped
        rw [toImport_cons] at fresh listed ⊢
        have own : v ∈ imports := listed v List.mem_cons_self
        have later : ∀ w ∈ toImport rest, w ∈ imports := fun w mem => listed w (List.mem_cons_of_mem v mem)
        have opened' : ∀ t ∈ (st.entering v.subject).importing, ∃ v ∈ imports, v.subject = t := by
          intro t mem
          rcases mem_entering.mp mem with rfl | there
          · exact ⟨v, own, rfl⟩
          · exact opened t there
        have kept' : (st.entering v.subject).notRestored = st.notRestored := by
          rw [Importing.entering]
          split_ifs <;> rfl
        have fewer : (st.entering v.subject).imported = st.imported := by
          rw [Importing.entering]
          split_ifs <;> rfl
        rw [importEntries_import]
        refine safe_attempt (safe_importEntry lawful held fresh.first.1 own _)
          fun g' r kept ended => ?_
        have told' : ∀ t, t ∉ (st.entering v.subject).importing →
            Told s (st.entering v.subject).notRestored g' t := by
          intro t out
          rw [mem_entering, not_or] at out
          rw [kept']
          exact told_of_others (ended.1 t out.1) (told t out.2)
        cases r with
        | error e =>
            exact safe_pure kept ⟨_, _, rfl, .failed opened' told'⟩
        | ok _ =>
            have entry := ended.2 rfl
            have open_ : ∀ t ∈ ((st.entering v.subject).registered v).importing,
                t = v.subject ∨ t ∈ st.importing := fun t mem => mem_entering.mp mem
            simp only [proceed]
            split_ifs
            · refine safe_mono (ih entry.partway fresh.first.2 later opened' told')
                fun g'' r _ looped => ?_
              obtain ⟨st', result, rfl, rest⟩ := looped
              exact ⟨st', result, rfl, rest.cons entry (by rw [Importing.registered, fewer]) open_⟩
            · rw [was v own]
              refine safe_bind (safe_restoreMode entry.partway ⟨v, own, rfl⟩)
                (fun _ e _ back => ?_) fun g'' r _ back => ?_
              · obtain ⟨ended, same, -⟩ := back
                cases same
              · obtain ⟨ended, same, back⟩ := back
                cases same
                have closed : ∀ t ∈ (((st.entering v.subject).registered v).left v.subject r).importing,
                    t ∈ (st.entering v.subject).importing := by
                  intro t mem
                  have there : t ∈ ((st.entering v.subject).registered v).importing := mem_left mem
                  exact there
                refine safe_mono (ih back.partway fresh.first.2 later
                  (fun t mem => opened' t (closed t mem)) (told_left told' back)) fun g3 r' _ looped => ?_
                obtain ⟨st', result, rfl, rest⟩ := looped
                refine ⟨st', result, rfl, rest.cons ⟨back.partway, entry.taken, entry.may⟩ ?_
                  fun t mem => open_ t (closed t mem)⟩
                cases r <;> exact congrArg (· ++ [v.imported]) fewer
      · rw [toImport_skip rest skipped] at fresh listed ⊢
        rw [importEntries_skip skipped]
        exact ih held fresh listed opened told

theorem safe_restoreEach {before : String → Option String}
    (was : ∀ v ∈ imports, before v.subject = s.modes v.subject) :
    ∀ {subjects notRestored : List String} {g : Registry}, Partway R s imports known g →
      (∀ t ∈ subjects, ∃ v ∈ imports, v.subject = t) →
      (∀ t, t ∉ subjects → Told s notRestored g t) →
        (restoreEach before subjects notRestored).Safe (Registry.faulty R) (OnTheWay R s imports)
          (fun g' r => ∃ notRestored', r = .ok notRestored' ∧ Partway R s imports known g' ∧
            ∀ t, Told s notRestored' g' t) g := by
  intro subjects
  induction subjects with
  | nil => exact fun held _ told => safe_pure ⟨known, held⟩ ⟨_, rfl, held, fun t => told t (List.not_mem_nil)⟩
  | cons subject subjects ih =>
      intro notRestored g held owned told
      obtain ⟨v, own, same⟩ := owned subject List.mem_cons_self
      subst same
      rw [restoreEach_cons, was v own]
      refine safe_bind (safe_restoreMode held ⟨v, own, rfl⟩) (fun _ e _ back => ?_) fun g' r _ back => ?_
      · obtain ⟨ended, same, -⟩ := back
        cases same
      · obtain ⟨ended, same, back⟩ := back
        cases same
        have later : ∀ t ∈ subjects, ∃ v ∈ imports, v.subject = t :=
          fun t mem => owned t (List.mem_cons_of_mem _ mem)
        have left : ∀ t, t ∉ ((⟨[], v.subject :: subjects, notRestored⟩ : Importing).left v.subject r).importing →
            Told s ((⟨[], v.subject :: subjects, notRestored⟩ : Importing).left v.subject r).notRestored g' t :=
          told_left told back
        cases r with
        | ok _ => exact ih back.partway later (by simpa [Importing.left] using left)
        | error why => exact ih back.partway later (by simpa [Importing.left] using left)

/-- What an import ends with: everything is held and every mode is as it was, or every mode
that is not is named. -/
def Exited (R : Rules) (s : Registry) (imports : List SnapshotVersion) (g' : Registry) :
    Except ImportRefusal ImportReport → Prop
  | .ok report => Progress R s imports g' ∧ g'.modes = s.modes ∧
      report.imported = imports.map SnapshotVersion.imported
  | .error e => ∀ t, g'.modes t = s.modes t ∨ ∃ reasons after told,
      e = .modeNotRestored (joined reasons) after ∧ notPutBack t (s.modes t) told ∈ reasons

/-- What an import that ends well has found of the registry it began with. -/
structure Importable (R : Rules) (s : Registry) (imports : List SnapshotVersion) : Prop where
  takeable : Takeable R s [] imports
  writable : ∀ v ∈ imports, readOnly (s.mode v.subject) = false
  may : ∀ v ∈ imports, R.modesChange = true

theorem reads_then {α β : Type} {always : Registry → Prop} {middle : α → Prop}
    {post : Registry → Except ImportRefusal β → Prop} {p : Pass α} {f : α → Pass β}
    (first : Reads R g p middle) (kept : always g) (stopped : ∀ e, post g (.error e))
    (rest : ∀ a, middle a → (f a).Safe (Registry.faulty R) always post g) :
    (p >>= f).Safe (Registry.faulty R) always post g := by
  have here : p.Safe (Registry.faulty R) always (fun t r => t = g ∧ ∀ a, r = .ok a → middle a) g :=
    safe_weaken first (fun t same => same ▸ kept) fun t r same holds => ⟨same, holds⟩
  refine safe_bind here (fun t e _ ended => ?_) fun t a _ ended => ?_
  · rw [ended.1]
    exact stopped e
  · rw [ended.1]
    exact rest a (ended.2 a rfl)

theorem safe_concluded {always : Registry → Prop}
    {post : Registry → Except ImportRefusal ImportReport → Prop} {report : ImportReport}
    {result : Except ImportRefusal Unit} {notRestored : List String} (kept : always g)
    (whole : result = .ok () → notRestored = [] → post g (.ok report))
    (failed : ∀ e, (notRestored ≠ [] → ∃ after, e = .modeNotRestored (joined notRestored) after) →
      post g (.error e)) :
    (orStop (concluded report result notRestored)).Safe (Registry.faulty R) always post g := by
  cases result with
  | ok _ =>
      cases notRestored with
      | nil => exact safe_pure kept (whole rfl rfl)
      | cons why more => exact safe_stop kept (failed _ fun _ => ⟨_, rfl⟩)
  | error e =>
      cases notRestored with
      | nil => exact safe_stop kept (failed _ fun some => absurd rfl some)
      | cons why more => exact safe_stop kept (failed _ fun _ => ⟨_, rfl⟩)

theorem exited_of_told {notRestored : List String} {e : ImportRefusal}
    (told : ∀ t, Told s notRestored g t)
    (names : notRestored ≠ [] → ∃ after, e = .modeNotRestored (joined notRestored) after) :
    Exited R s imports g (.error e) := by
  intro t
  refine (told t).imp id fun told => ?_
  obtain ⟨told, mem⟩ := told
  obtain ⟨after, is⟩ := names (List.ne_nil_of_mem mem)
  exact ⟨notRestored, after, told, is, mem⟩

theorem safe_import (lawful : R.Lawful) {entries : List SnapshotVersion} {classes : List Class}
    (fresh : Fresh s (toImport (entries.zip classes))) :
    (import_ entries classes).Safe (Registry.faulty R) (OnTheWay R s (toImport (entries.zip classes)))
      (fun g' r => Exited R s (toImport (entries.zip classes)) g' r ∧
        ∀ report, r = .ok report → Importable R s (toImport (entries.zip classes))) s := by
  generalize same : toImport (entries.zip classes) = imports at fresh ⊢
  rw [import_]
  dsimp only
  rw [same]
  have here : OnTheWay R s imports s := ⟨[], .here⟩
  have untouched (e : ImportRefusal) : Exited R s imports s (.error e) ∧
      ∀ report, (.error e : Except ImportRefusal ImportReport) = .ok report → Importable R s imports :=
    ⟨fun t => .inl rfl, fun _ => not_ok⟩
  split_ifs with nothing
  · subst nothing
    have empty : Importable R s [] :=
      ⟨trivial, fun v none => (List.not_mem_nil none).elim,
        fun v none => (List.not_mem_nil none).elim⟩
    exact safe_pure here ⟨⟨.here, rfl, rfl⟩, fun _ _ => empty⟩
  · refine reads_then reads_writableModes here untouched fun modes read => ?_
    obtain ⟨rfl, writable⟩ := read
    let before (subject : String) : Option String :=
      (((subjectsOf imports).map fun t => (t, s.modes t)).lookup subject).join
    have was : ∀ v ∈ imports, before v.subject = s.modes v.subject := by
      intro v mem
      have read := List.lookup_graph s.modes (mem_subjectsOf.mpr ⟨v, mem, rfl⟩)
      exact congrArg Option.join read
    have loop : (importEntries before (entries.zip classes) ⟨[], [], []⟩).Safe (Registry.faulty R)
        (OnTheWay R s imports) (fun g' r => ∃ st' result, r = .ok (st', result) ∧
          Looped R s imports [] imports ⟨[], [], []⟩ g' st' result) s := by
      have closed : ∀ t ∈ (⟨[], [], []⟩ : Importing).importing, ∃ v ∈ imports, v.subject = t :=
        fun t none => (List.not_mem_nil none).elim
      rw [← same] at fresh
      have looped := safe_importEntries lawful was .here fresh (fun _ mem => same ▸ mem) closed
        fun t _ => .inl rfl
      rwa [same] at looped
    refine safe_bind loop (fun g' e _ ended => ?_) fun g' r kept ended => ?_
    · obtain ⟨st, result, ended, -⟩ := ended
      cases ended
    · obtain ⟨st, result, ended, looped⟩ := ended
      cases ended
      have restoring {known : List SnapshotVersion} (held : Partway R s imports known g')
          (all : result = .ok () → known = imports) :
          (restoreEach before st.importing st.notRestored >>= fun notRestored =>
            orStop (concluded ⟨st.imported, (entries.zip classes).countP fun e => e.2 ≠ .import_⟩
              result notRestored)).Safe (Registry.faulty R) (OnTheWay R s imports)
              (fun g' r => Exited R s imports g' r ∧ ∀ report, r = .ok report → Importable R s imports)
              g' := by
        refine safe_bind (safe_restoreEach was held looped.importing looped.told)
          (fun _ e _ ended => ?_) fun u notRestored kept ended => ?_
        · obtain ⟨_, ended, -⟩ := ended
          cases ended
        · obtain ⟨_, ended, held, told⟩ := ended
          cases ended
          refine safe_concluded kept (fun ok none => ?_) fun e names =>
            ⟨exited_of_told told names, fun _ => not_ok⟩
          refine ⟨⟨all ok ▸ held.progress, funext fun t => ?_, looped.imported ok⟩, fun _ _ => ?_⟩
          · refine (told t).elim id fun told => ?_
            rw [none] at told
            obtain ⟨_, mem⟩ := told
            cases mem
          · refine ⟨looped.takeable ok, fun v mem => ?_, fun v mem => ?_⟩
            · exact writable _ (mem_subjectsOf.mpr ⟨v, mem, rfl⟩)
            · exact (looped.may ok v mem).elim (fun opened => (List.not_mem_nil opened).elim) id
      cases result with
      | error e =>
          obtain ⟨known, held⟩ := kept
          exact restoring held not_ok
      | ok _ => exact restoring (looped.partway rfl) fun _ => List.nil_append imports

end

end Logweir.SchemaRegistry
