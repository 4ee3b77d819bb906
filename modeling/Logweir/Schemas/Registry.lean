import Logweir.Schemas.Import

/-!
# A target registry

A registry that answers by Confluent's rules: schemas under IDs, subjects holding versions,
a mode of its own and modes of its subjects.  A version is registered under a given ID only
in `IMPORT` mode, when its references are held and the ID is not another schema's.  Any
request may fail, before or after it takes effect.
-/

set_option autoImplicit false

namespace Logweir.SchemaRegistry

open Logweir.Json Logweir.Text Logweir.Programs

structure Held where
  subject : String
  version : UInt32
  id : UInt32
  deleted : Bool
deriving DecidableEq

structure Registry where
  schemas : UInt32 → Option Content
  held : List Held
  globalMode : String
  modes : String → Option String

/-- What registries differ in: which schemas a lookup takes for the same, which texts parse,
whether modes can be changed, and the words of an answer. -/
structure Rules where
  same : Content → Content → Bool
  valid : Content → Bool
  modesChange : Bool
  message : Nat → String

/-- A lookup's sameness is an equivalence. -/
structure Rules.Lawful (R : Rules) : Prop where
  refl : ∀ a, R.same a a = true
  symm : ∀ a b, R.same a b = true → R.same b a = true
  trans : ∀ a b c, R.same a b = true → R.same b c = true → R.same a c = true

variable (R : Rules)

def errorBody (code : Nat) : Json :=
  .obj [("error_code", .num code), ("message", .str (R.message code))]

def refusal (status code : Nat) : Except String (Nat × Json) := .ok (status, errorBody R code)

def Registry.holdsSubject (g : Registry) (subject : String) : Bool :=
  g.held.any fun h => h.subject = subject

def Registry.find (g : Registry) (subject : String) (version : UInt32) : Option Held :=
  g.held.find? fun h => h.subject = subject && h.version = version

def Registry.lookUp (g : Registry) (subject : String) (body : Content) : Option Held :=
  g.held.find? fun h => h.subject = subject && (g.schemas h.id).any fun c => R.same c body

def Registry.mode (g : Registry) (subject : String) : String := (g.modes subject).getD g.globalMode

def Registry.resolves (g : Registry) (body : Content) : Bool :=
  body.references.all fun r => (g.find r.subject r.version).isSome

def Registry.takes (g : Registry) (body : Content) (id : UInt32) : Bool :=
  R.valid body && g.resolves body && (g.schemas id).all fun c => R.same c body

def Registry.setMode (g : Registry) (subject : String) (mode : Option String) : Registry :=
  { g with modes := fun s => if s = subject then mode else g.modes s }

def Registry.add (g : Registry) (subject : String) (body : Content) (id version : UInt32) : Registry :=
  { g with
    schemas := fun i => if i = id then (g.schemas id).or (some body) else g.schemas i
    held := (g.held.filter fun h => !(h.subject = subject && h.version = version)) ++
      [⟨subject, version, id, false⟩] }

/-- The answer by the rules, and what the request leaves. -/
def Registry.serve (g : Registry) : (request : Request) → Answer request × Registry
  | .getById id =>
      match g.schemas id with
      | some body => (.ok (200, .obj [("schema", .str body.schema)]), g)
      | none => (refusal R 404 SCHEMA_NOT_FOUND, g)
  | .lookUp subject body =>
      match g.lookUp R subject body with
      | some h =>
          (.ok (200, .obj [("subject", .str subject), ("version", .num h.version.toNat),
            ("id", .num h.id.toNat)]), g)
      | none =>
          (refusal R 404 (if g.holdsSubject subject then SCHEMA_NOT_FOUND else SUBJECT_NOT_FOUND), g)
  | .getVersion subject version =>
      match g.find subject version with
      | some h =>
          (.ok (200, .obj [("subject", .str subject), ("version", .num version.toNat),
            ("id", .num h.id.toNat)]), g)
      | none =>
          (refusal R 404 (if g.holdsSubject subject then VERSION_NOT_FOUND else SUBJECT_NOT_FOUND),
            g)
  | .getVersions subject =>
      if g.holdsSubject subject then
        (.ok (200, .arr ((g.held.filter fun h => h.subject = subject).map fun h =>
          .num h.version.toNat)), g)
      else (refusal R 404 SUBJECT_NOT_FOUND, g)
  | .getMode => (.ok (200, .obj [("mode", .str g.globalMode)]), g)
  | .getModeOf subject =>
      match g.modes subject with
      | some mode => (.ok (200, .obj [("mode", .str mode)]), g)
      | none =>
          (refusal R 404 (if g.holdsSubject subject then NO_SUBJECT_MODE else SUBJECT_NOT_FOUND), g)
  | .putMode subject mode =>
      if R.modesChange then (.ok (200, .obj [("mode", .str mode)]), g.setMode subject (some mode))
      else (refusal R 422 42205, g)
  | .deleteMode subject =>
      match g.modes subject with
      | some mode =>
          if R.modesChange then (.ok (200, .obj [("mode", .str mode)]), g.setMode subject none)
          else (refusal R 422 42205, g)
      | none => (refusal R 404 NO_SUBJECT_MODE, g)
  | .register subject body id version =>
      if g.mode subject ≠ "IMPORT" then (refusal R 422 42205, g)
      else if !g.takes R body id then (refusal R 422 42201, g)
      else (.ok (200, .obj [("id", .num id.toNat)]), g.add subject body id version)

/-- An answer that is not the registry's: none, or a refused credential, or a server's failure. -/
def Failed : Except String (Nat × Json) → Prop
  | .error _ => True
  | .ok (status, _) => status = 401 ∨ status = 403 ∨ 500 ≤ status

/-- The registry behind a connection that may fail: a request is answered by the rules, or fails
before or after it takes effect. -/
def Registry.faulty : Server Registry Request Answer :=
  fun g request answer g' => (answer, g') = g.serve R request ∨
    (Failed answer ∧ (g' = g ∨ g' = (g.serve R request).2))

section

variable {R} {g g' : Registry} {request : Request} {answer : Answer request}

theorem serve_reads (reads : request.reads = true) : (g.serve R request).2 = g := by
  cases request with
  | getById id => simp only [Registry.serve]; split <;> rfl
  | lookUp subject body => simp only [Registry.serve]; split <;> rfl
  | getVersion subject version => simp only [Registry.serve]; split <;> rfl
  | getVersions subject => simp only [Registry.serve]; split <;> rfl
  | getMode => rfl
  | getModeOf subject => simp only [Registry.serve]; split <;> rfl
  | putMode subject mode => cases reads
  | deleteMode subject => cases reads
  | register subject body id version => cases reads

theorem served_of_transport (answered : Registry.faulty R g request answer g') {status : Nat}
    {body : Json} (through : transport request answer = .ok (status, body)) :
    (answer, g') = g.serve R request ∧ answer = .ok (status, body) := by
  cases answer with
  | error e => cases through
  | ok got =>
      obtain ⟨status', body'⟩ := got
      simp only [transport] at through
      split_ifs at through with credential failure
      cases through
      rcases answered with served | ⟨failed, -⟩
      · exact ⟨served, rfl⟩
      · rcases failed with refused | refused | down
        · exact absurd (.inl refused) credential
        · exact absurd (.inr refused) credential
        · exact absurd down failure

end

end Logweir.SchemaRegistry
