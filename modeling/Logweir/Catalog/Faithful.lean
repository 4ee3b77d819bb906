import Mathlib.Order.Defs.LinearOrder
import Logweir.Catalog.Rows

/-!
# When a merge is a function of what was observed

Which entry of a point comes first decides the row's time and, among equally bad
signatures, its signer, and an observed `Conflict` is lost where another place is
`Available`.  `faithful_iff` is when none of this shows.
-/

set_option autoImplicit false

namespace Logweir.Catalog

open Logweir.Grouping

theorem newestFirst_trans : ∀ a b c : RunnerEntry,
    NewestFirst a b → NewestFirst b c → NewestFirst a c := by
  unfold NewestFirst
  rintro a b c (ab | ⟨ab, first⟩) (bc | ⟨bc, second⟩)
  · exact .inl (by omega)
  · exact .inl (by omega)
  · exact .inl (by omega)
  · exact .inr ⟨ab.trans bc, le_trans first second⟩

theorem newestFirst_total (a b : RunnerEntry) : NewestFirst a b ∨ NewestFirst b a := by
  unfold NewestFirst
  rcases lt_trichotomy a.recoveryPointAtMs b.recoveryPointAtMs with less | same | more
  · exact .inr (.inl less)
  · rcases le_total a.pointId b.pointId with le | le
    · exact .inl (.inr ⟨same, le⟩)
    · exact .inr (.inr ⟨same.symm, le⟩)
  · exact .inl (.inl more)

theorem newestFirst_antisymm {a b : RunnerEntry} (ab : NewestFirst a b) (ba : NewestFirst b a) :
    a.pointId = b.pointId := by
  unfold NewestFirst at ab ba
  rcases ab with less | ⟨same, first⟩
  · rcases ba with more | ⟨same, -⟩ <;> omega
  · rcases ba with more | ⟨-, second⟩
    · omega
    · exact le_antisymm first second

instance : Std.Total NewestFirst := ⟨newestFirst_total⟩

instance : IsTrans RunnerEntry NewestFirst := ⟨newestFirst_trans⟩

theorem sorted_mergeEntries (l : List RunnerEntry) : (mergeEntries l).Pairwise NewestFirst :=
  List.pairwise_insertionSort NewestFirst _

section Faithful

variable (trust : TrustView) (now : Int)

def RunnerEntry.verification (e : RunnerEntry) : Verification :=
  (viewEntry e trust now).verification

structure Row where
  pointId : String
  availability : Availability
  signature : SignatureVerdict
  verification : Verification
  signerKeyId : Option String
deriving DecidableEq

def RunnerEntry.row (r : RunnerEntry) : Row :=
  { pointId := r.pointId
    availability := r.availability
    signature := r.signature
    verification := r.verification trust now
    signerKeyId := r.signerKeyId }

def rows (l : List RunnerEntry) : List Row := (mergeEntries l).map (·.row trust now)

variable {trust now}

/-- The observation says so of the point or of one place. -/
def RunnerEntry.Reports (e : RunnerEntry) (a : Availability) : Prop :=
  e.availability = a ∨ ∃ l ∈ e.locations, l.availabilityOr e.availability = a

/-- All records of the point name the same facts of its receipt. -/
def Agreeing (l : List RunnerEntry) (id : String) : Prop :=
  ∀ e ∈ observations l id, ∀ f ∈ observations l id, e.facts = f.facts

variable (trust now)

/-- The rows are a function of what was observed, and none launders a bad observation. -/
structure Faithful (l : List RunnerEntry) : Prop where
  reorder : ∀ l', l'.Perm l → rows trust now l' = rows trust now l
  distinct : ((mergeEntries l).map fun r => r.pointId).Nodup
  points : ∀ id, id ∈ (mergeEntries l).map (fun r => r.pointId) ↔ id ∈ l.map fun e => e.pointId
  conflicts : ∀ e ∈ l, ∀ f ∈ l, e.pointId = f.pointId → e.facts ≠ f.facts →
    ∀ r ∈ mergeEntries l, r.pointId = e.pointId → r.availability = .conflict
  selected : ∀ r ∈ mergeEntries l, (viewEntry r trust now).selectable = true →
    (∀ e ∈ observations l r.pointId, ¬ e.Reports .conflict ∧
      (e.verification trust now).selectable = true) ∧
    Agreeing l r.pointId ∧ ∃ e ∈ observations l r.pointId, e.Reports .available

def others (l : List RunnerEntry) (e : RunnerEntry) : List RunnerEntry :=
  observations (l.erase e) e.pointId

/-- Nothing the rows show depends on which entry of a point is first, and no `Conflict`
is observed where the others make the point selectable. -/
structure Settles (l : List RunnerEntry) : Prop where
  signers : ∀ id, ∀ e ∈ observations l id, ∀ f ∈ observations l id,
    (∀ g ∈ observations l id, signatureRank e.signature ≤ signatureRank g.signature ∧
      signatureRank f.signature ≤ signatureRank g.signature) → e.signerKeyId = f.signerKeyId
  times : ∀ id, ∀ w ∈ observations l id,
    (∀ g ∈ observations l id, signatureRank w.signature ≤ signatureRank g.signature) →
    ∀ e ∈ observations l id, ∀ f ∈ observations l id,
      classifyVerification w.signature w.signerKeyId e.signedAt trust now =
        classifyVerification w.signature w.signerKeyId f.signedAt trust now
  places : ∀ id, Agreeing l id → ∀ e ∈ observations l id, ∀ f ∈ observations l id, ∀ n,
    Reaches e (others l e) n → Reaches f (others l f) n
  order : ∀ e ∈ l, ∀ e' ∈ l, ∀ f ∈ l, ∀ f' ∈ l, e.pointId = e'.pointId → f.pointId = f'.pointId →
    e.pointId ≠ f.pointId → NewestFirst e f → NewestFirst e' f'
  sound : ∀ id, Agreeing l id → ∀ e ∈ observations l id,
    Reaches e (others l e) (availabilityRank .available) →
    (∀ g ∈ observations l id, (g.verification trust now).selectable = true) →
    ∀ g ∈ observations l id, ¬ g.Reports .conflict

end Faithful

variable {trust : TrustView} {now : Int} {l l' : List RunnerEntry}

theorem observations_perm (perm : l'.Perm l) (id : String) :
    (observations l' id).Perm (observations l id) := perm.filter _

theorem signatureRank_inj {a b : SignatureVerdict} (same : signatureRank a = signatureRank b) :
    a = b := by
  cases a <;> cases b <;> first | rfl | cases same

theorem availabilityRank_inj {a b : Availability} (same : availabilityRank a = availabilityRank b) :
    a = b := by
  cases a <;> cases b <;> first | rfl | cases same

theorem availability_ext {a b : Availability}
    (same : ∀ n, n ≤ availabilityRank a ↔ n ≤ availabilityRank b) : a = b :=
  availabilityRank_inj (Nat.le_antisymm ((same _).mp (Nat.le_refl _)) ((same _).mpr (Nat.le_refl _)))

theorem reaches_perm {e : RunnerEntry} {rest rest' : List RunnerEntry} {n : Nat}
    (perm : rest'.Perm rest) : Reaches e rest' n ↔ Reaches e rest n := by
  unfold Reaches
  simp only [List.mem_cons, perm.mem_iff]

theorem others_perm {e : RunnerEntry} {es : List RunnerEntry} {id : String}
    (obs : observations l' id = e :: es) (perm : l'.Perm l) : es.Perm (others l e) := by
  have here : e ∈ observations l' id := by
    rw [obs]
    exact List.mem_cons_self
  obtain ⟨member, named⟩ := mem_observations.mp here
  have split := perm.trans (List.perm_cons_erase (perm.mem_iff.mp member))
  have both := split.filter fun f => f.pointId = id
  rw [← observations, obs, List.filter_cons_of_pos (by simpa using named)] at both
  unfold others
  rw [named]
  exact both.cons_inv

theorem row_cases (perm : l'.Perm l) {r : RunnerEntry} (row : r ∈ mergeEntries l') :
    ∃ e ∈ observations l r.pointId, r.facts = e.facts ∧ r.signedAt = e.signedAt ∧
      (∀ g ∈ observations l r.pointId, signatureRank r.signature ≤ signatureRank g.signature) ∧
      (∃ g ∈ observations l r.pointId, g.signature = r.signature ∧
        g.signerKeyId = r.signerKeyId) ∧
      (¬ Agreeing l r.pointId → r.availability = .conflict) ∧
      (Agreeing l r.pointId →
        ∀ n, n ≤ availabilityRank r.availability ↔ Reaches e (others l e) n) := by
  obtain ⟨e, es, obs, spec⟩ := rowOf_mergeEntries row
  have same : ∀ g, g ∈ observations l r.pointId ↔ g ∈ e :: es := by
    intro g
    rw [← (observations_perm perm _).mem_iff, obs]
  refine ⟨e, (same e).mpr List.mem_cons_self, spec.facts, spec.signedAt, ?_, ?_, ?_, ?_⟩
  · exact fun g member => spec.worst g ((same g).mp member)
  · obtain ⟨g, member, named⟩ := spec.signer
    exact ⟨g, (same g).mpr member, named⟩
  · intro disagree
    apply spec.conflict
    by_contra none
    apply disagree
    have equal : ∀ g ∈ e :: es, g.facts = e.facts := by
      intro g member
      rcases List.mem_cons.mp member with rfl | later
      · rfl
      · by_contra differ
        exact none ⟨g, later, differ⟩
    intro a ha b hb
    exact (equal a ((same a).mp ha)).trans (equal b ((same b).mp hb)).symm
  · intro agree n
    rw [spec.best (fun g member => agree g ((same g).mpr (List.mem_cons_of_mem e member)) e
      ((same e).mpr List.mem_cons_self)) n]
    exact reaches_perm (others_perm obs perm)

theorem viewEntry_selectable (r : RunnerEntry) : (viewEntry r trust now).selectable =
    selectable r.availability (r.verification trust now) := rfl

theorem selectable_iff {a : Availability} {v : Verification} :
    selectable a v = true ↔ a = .available ∧ v.selectable = true := by
  unfold selectable Availability.selectable
  rw [Bool.and_eq_true, decide_eq_true_eq]

theorem observations_self {e : RunnerEntry} {id : String} (here : e ∈ observations l id) :
    e.pointId = id := (mem_observations.mp here).2

theorem row_eq (s : Settles trust now l) (perm : l'.Perm l) {r r' : RunnerEntry}
    (row : r ∈ mergeEntries l') (row' : r' ∈ mergeEntries l) (same : r.pointId = r'.pointId) :
    r.row trust now = r'.row trust now := by
  obtain ⟨e, here, -, signed, worst, ⟨g, member, signature, key⟩, conflict, best⟩ :=
    row_cases perm row
  obtain ⟨e', here', -, signed', worst', ⟨g', member', signature', key'⟩, conflict', best'⟩ :=
    row_cases (List.Perm.refl l) row'
  rw [← same] at here' worst' member' conflict' best'
  have level : signatureRank r.signature = signatureRank r'.signature := by
    apply Nat.le_antisymm
    · rw [← signature']
      exact worst g' member'
    · rw [← signature]
      exact worst' g member
  have sameSignature := signatureRank_inj level
  have sameKey : r.signerKeyId = r'.signerKeyId := by
    rw [← key, ← key']
    apply s.signers r.pointId g member g' member'
    intro h listed
    rw [signature, signature', ← sameSignature]
    exact ⟨worst h listed, worst h listed⟩
  have sameVerdict : r.verification trust now = r'.verification trust now := by
    have settled := s.times r.pointId g member (by rw [signature]; exact worst) e here e' here'
    rw [signature, key, ← signed, ← signed'] at settled
    show classifyVerification r.signature r.signerKeyId r.signedAt trust now = _
    rw [settled, sameSignature, sameKey]
    rfl
  have sameAvailability : r.availability = r'.availability := by
    by_cases agree : Agreeing l r.pointId
    · apply availability_ext
      intro n
      rw [best agree n, best' agree n]
      exact ⟨s.places _ agree e here e' here' n, s.places _ agree e' here' e here n⟩
    · rw [conflict agree, conflict' agree]
  unfold RunnerEntry.row
  rw [same, sameAvailability, sameSignature, sameVerdict, sameKey]

/-- One point before another, as some entries of theirs have it. -/
def Precedes (l : List RunnerEntry) (p q : String) : Prop :=
  ∃ e ∈ l, ∃ f ∈ l, e.pointId = p ∧ f.pointId = q ∧ NewestFirst e f

theorem newestFirst_congr {r r' e e' : RunnerEntry} (facts : r.facts = e.facts)
    (facts' : r'.facts = e'.facts) (id : r.pointId = e.pointId) (id' : r'.pointId = e'.pointId) :
    NewestFirst r r' ↔ NewestFirst e e' := by
  have point : r.recoveryPointAtMs = e.recoveryPointAtMs :=
    congrArg Facts.recoveryPointAtMs facts
  have point' : r'.recoveryPointAtMs = e'.recoveryPointAtMs :=
    congrArg Facts.recoveryPointAtMs facts'
  unfold NewestFirst
  rw [point, point', id, id']

theorem ids_sorted (perm : l'.Perm l) :
    ((mergeEntries l').map fun r => r.pointId).Pairwise (Precedes l) := by
  rw [List.pairwise_map]
  apply (sorted_mergeEntries l').imp_of_mem
  intro r r' row row' newer
  obtain ⟨e, here, facts, -⟩ := row_cases perm row
  obtain ⟨e', here', facts', -⟩ := row_cases perm row'
  obtain ⟨member, named⟩ := mem_observations.mp here
  obtain ⟨member', named'⟩ := mem_observations.mp here'
  exact ⟨e, member, e', member', named, named',
    (newestFirst_congr facts facts' named.symm named'.symm).mp newer⟩

theorem mem_ids (l : List RunnerEntry) (id : String) :
    id ∈ (mergeEntries l).map (fun r => r.pointId) ↔ id ∈ l.map fun e => e.pointId := by
  simp only [List.mem_map]
  constructor
  · rintro ⟨r, row, rfl⟩
    obtain ⟨e, here, -⟩ := row_cases (List.Perm.refl l) row
    exact ⟨e, mem_observations.mp here⟩
  · rintro ⟨e, member, rfl⟩
    exact exists_row member

theorem ids_eq (s : Settles trust now l) (perm : l'.Perm l) :
    ((mergeEntries l').map fun r => r.pointId) = (mergeEntries l).map fun r => r.pointId := by
  have same : ((mergeEntries l').map fun r => r.pointId).Perm
      ((mergeEntries l).map fun r => r.pointId) := by
    apply (List.perm_ext_iff_of_nodup (nodup_rows l') (nodup_rows l)).mpr
    intro id
    rw [mem_ids, mem_ids, (perm.map _).mem_iff]
  apply same.eq_of_pairwise _ (ids_sorted perm) (ids_sorted (List.Perm.refl l))
  rintro _ _ - - ⟨e, he, f, hf, rfl, rfl, ef⟩ ⟨f', hf', e', he', samef, samee, fe⟩
  by_contra apart
  have back := s.order f' hf' f hf e' he' e he samef samee
    (fun h => apart (samee.symm.trans (h.symm.trans samef))) fe
  exact apart (newestFirst_antisymm ef back)

theorem reaches_reports {e : RunnerEntry} {rest : List RunnerEntry}
    (reaches : Reaches e rest (availabilityRank .available)) :
    ∃ g ∈ e :: rest, g.Reports .available := by
  have top : ∀ a, availabilityRank .available ≤ availabilityRank a → a = .available := by
    intro a high
    cases a <;> first | rfl | exact absurd high (by decide)
  have place : ∀ (g : RunnerEntry) (id : String), ∀ a ∈ g.valuesAt id, a = .available →
      g.Reports .available := by
    rintro g id _ member rfl
    obtain ⟨l, listed, -, value⟩ := mem_said.mp member
    exact .inr ⟨l, listed, value⟩
  rcases reaches with ⟨id, ⟨a, member, high⟩ | ⟨⟨g, listed, some⟩, first, rest'⟩⟩ | ⟨-, high⟩
  · exact ⟨e, List.mem_cons_self, place e id a (List.mem_of_mem_drop member) (top a high)⟩
  · cases values : g.valuesAt id with
    | nil => exact absurd values some
    | cons a as =>
        have here : a ∈ g.valuesAt id := by
          rw [values]
          exact List.mem_cons_self
        rcases List.mem_cons.mp listed with rfl | later
        · have high := first a (by rw [values]; exact List.mem_cons_self)
          exact ⟨g, List.mem_cons_self, place g id a here (top a high)⟩
        · have high := rest' g later a here
          exact ⟨g, List.mem_cons_of_mem e later, place g id a here (top a high)⟩
  · exact ⟨e, List.mem_cons_self, .inl (top _ high)⟩

theorem passes_of_selectable (s : Settles trust now l) {r : RunnerEntry}
    (row : r ∈ mergeEntries l) (offered : (viewEntry r trust now).selectable = true) :
    Agreeing l r.pointId ∧
      (∀ g ∈ observations l r.pointId, (g.verification trust now).selectable = true) ∧
      ∃ e ∈ observations l r.pointId, Reaches e (others l e) (availabilityRank .available) := by
  rw [viewEntry_selectable, selectable_iff] at offered
  obtain ⟨available, passes⟩ := offered
  obtain ⟨e, here, -, signed, worst, ⟨g₀, member₀, signature₀, key₀⟩, conflict, best⟩ :=
    row_cases (List.Perm.refl l) row
  have agree : Agreeing l r.pointId := by
    by_contra disagree
    rw [conflict disagree] at available
    cases available
  have verified : r.signature = .verified := verified_of_selectable passes
  have all : ∀ g ∈ observations l r.pointId, g.signature = .verified := by
    intro g member
    have least := worst g member
    rw [verified] at least
    cases signature : g.signature <;> rw [signature] at least <;>
      first | rfl | exact absurd least (by decide)
  refine ⟨agree, ?_, e, here, ?_⟩
  · intro g member
    have level : ∀ h ∈ observations l r.pointId,
        signatureRank g.signature ≤ signatureRank h.signature := by
      intro h listed
      rw [all g member, all h listed]
    have key : g.signerKeyId = r.signerKeyId := by
      rw [← key₀]
      apply s.signers r.pointId g member g₀ member₀
      intro h listed
      refine ⟨level h listed, ?_⟩
      rw [all g₀ member₀, all h listed]
    have settled := s.times r.pointId g member level g member e here
    show (classifyVerification g.signature g.signerKeyId g.signedAt trust now).selectable = true
    rw [settled, all g member, key, ← signed, ← verified]
    exact passes
  · rw [← best agree, available]

theorem faithful_of_settles (s : Settles trust now l) : Faithful trust now l where
  reorder := by
    intro l' perm
    apply map_eq_of_keys (ids_eq s perm)
    intro r row r' row' same
    exact row_eq s perm row row' same
  distinct := nodup_rows l
  points := mem_ids l
  conflicts := by
    intro e member f member' same differ r row named
    obtain ⟨_, _, _, _, _, _, conflict, _⟩ := row_cases (List.Perm.refl l) row
    apply conflict
    intro agree
    exact differ (agree e (mem_observations.mpr ⟨member, named.symm⟩) f
      (mem_observations.mpr ⟨member', same.symm.trans named.symm⟩))
  selected := by
    intro r row offered
    obtain ⟨agree, passes, e, here, reaches⟩ := passes_of_selectable s row offered
    have clean := s.sound r.pointId agree e here reaches passes
    refine ⟨fun g member => ⟨clean g member, passes g member⟩, agree, ?_⟩
    obtain ⟨g, listed, available⟩ := reaches_reports reaches
    refine ⟨g, ?_, available⟩
    rcases List.mem_cons.mp listed with rfl | later
    · exact here
    · obtain ⟨member, named⟩ := mem_observations.mp later
      exact mem_observations.mpr ⟨List.mem_of_mem_erase member,
        named.trans (observations_self here)⟩

theorem row_unique {r r' : RunnerEntry} (row : r ∈ mergeEntries l) (row' : r' ∈ mergeEntries l)
    (same : r.pointId = r'.pointId) : r = r' :=
  List.inj_on_of_nodup_map (nodup_rows l) row row' same

theorem row_first (h : Faithful trust now l) {id : String} {e : RunnerEntry}
    (here : e ∈ observations l id) :
    ∃ r, RowOf e (others l e) r ∧ ∃ r₀ ∈ mergeEntries l, r₀.pointId = id ∧
      r.row trust now = r₀.row trust now := by
  obtain ⟨member, named⟩ := mem_observations.mp here
  have perm : (e :: l.erase e).Perm l := (List.perm_cons_erase member).symm
  obtain ⟨r, row, sameId⟩ := exists_row (l := e :: l.erase e) List.mem_cons_self
  have obs : observations (e :: l.erase e) r.pointId = e :: others l e := by
    unfold observations others
    rw [List.filter_cons_of_pos (by simpa using sameId.symm), sameId]
    rfl
  obtain ⟨_, _, first, spec⟩ := rowOf_mergeEntries row
  rw [obs] at first
  cases first
  have shown : r.row trust now ∈ rows trust now l := by
    rw [← h.reorder _ perm]
    exact List.mem_map_of_mem row
  obtain ⟨r₀, row₀, same⟩ := List.mem_map.mp shown
  refine ⟨r, spec, r₀, row₀, ?_, same.symm⟩
  exact (congrArg Row.pointId same).trans (sameId.trans named)

theorem rows_first (h : Faithful trust now l) {id : String} {e f : RunnerEntry}
    (here : e ∈ observations l id) (here' : f ∈ observations l id) :
    ∃ r r', RowOf e (others l e) r ∧ RowOf f (others l f) r' ∧
      r.row trust now = r'.row trust now := by
  obtain ⟨r, spec, r₀, row₀, named, same⟩ := row_first h here
  obtain ⟨r', spec', r₁, row₁, named', same'⟩ := row_first h here'
  rw [row_unique row₀ row₁ (named.trans named'.symm)] at same
  exact ⟨r, r', spec, spec', same.trans same'.symm⟩

theorem mem_first {id : String} {e g : RunnerEntry} (here : e ∈ observations l id) :
    g ∈ e :: others l e ↔ g ∈ observations l id := by
  obtain ⟨member, named⟩ := mem_observations.mp here
  have perm : (e :: l.erase e).Perm l := (List.perm_cons_erase member).symm
  rw [← (observations_perm perm id).mem_iff]
  unfold observations others
  rw [List.filter_cons_of_pos (by simpa using named), named]
  rfl

theorem signers_of_faithful (h : Faithful trust now l) {id : String} {e f : RunnerEntry}
    (here : e ∈ observations l id) (here' : f ∈ observations l id)
    (worst : ∀ g ∈ observations l id, signatureRank e.signature ≤ signatureRank g.signature ∧
      signatureRank f.signature ≤ signatureRank g.signature) :
    e.signerKeyId = f.signerKeyId := by
  obtain ⟨r, r', spec, spec', same⟩ := rows_first h here here'
  have key := (spec.first fun g member => (worst g ((mem_first here).mp member)).1).2
  have key' := (spec'.first fun g member => (worst g ((mem_first here').mp member)).2).2
  rw [← key, ← key']
  exact congrArg Row.signerKeyId same

theorem verification_first (h : Faithful trust now l) {id : String} {e w r : RunnerEntry}
    (here : e ∈ observations l id) (chosen : w ∈ observations l id)
    (worst : ∀ g ∈ observations l id, signatureRank w.signature ≤ signatureRank g.signature)
    (spec : RowOf e (others l e) r) :
    r.verification trust now =
      classifyVerification w.signature w.signerKeyId e.signedAt trust now := by
  obtain ⟨g, member, signature, key⟩ := spec.signer
  have listed := (mem_first here).mp member
  have level : signatureRank g.signature = signatureRank w.signature := by
    apply Nat.le_antisymm
    · rw [signature]
      exact spec.worst w ((mem_first here).mpr chosen)
    · exact worst g listed
  have sameKey : g.signerKeyId = w.signerKeyId := by
    apply signers_of_faithful h listed chosen
    intro x known
    rw [level]
    exact ⟨worst x known, worst x known⟩
  show classifyVerification r.signature r.signerKeyId r.signedAt trust now = _
  rw [← signature, ← key, spec.signedAt, signatureRank_inj level, sameKey]

theorem precedes_of_newest (h : Faithful trust now l) {e f : RunnerEntry} (he : e ∈ l) (hf : f ∈ l)
    (apart : e.pointId ≠ f.pointId) (newer : NewestFirst e f) :
    ∃ i j : Nat, i < j ∧ ((rows trust now l).map Row.pointId)[i]? = some e.pointId ∧
      ((rows trust now l).map Row.pointId)[j]? = some f.pointId := by
  let l' := e :: f :: (l.erase e).erase f
  have other : f ∈ l.erase e := (List.mem_erase_of_ne fun same => apart (by rw [same])).mpr hf
  have perm : l'.Perm l := by
    have second := (List.perm_cons_erase other).symm.cons e
    exact second.trans (List.perm_cons_erase he).symm
  obtain ⟨r, row, named⟩ := exists_row (l := l') (e := e) List.mem_cons_self
  obtain ⟨r', row', named'⟩ := exists_row (l := l') (e := f)
    (List.mem_cons_of_mem e List.mem_cons_self)
  obtain ⟨_, _, first, spec⟩ := rowOf_mergeEntries row
  obtain ⟨_, _, first', spec'⟩ := rowOf_mergeEntries row'
  have isFirst : observations l' r.pointId =
      e :: observations (f :: (l.erase e).erase f) r.pointId :=
    List.filter_cons_of_pos (by simpa using named.symm)
  have isFirst' : observations l' r'.pointId =
      f :: observations ((l.erase e).erase f) r'.pointId := by
    have skip : ¬ e.pointId = r'.pointId := fun same => apart (same.trans named')
    unfold observations
    rw [List.filter_cons_of_neg (by simpa using skip),
      List.filter_cons_of_pos (by simpa using named'.symm)]
  rw [isFirst] at first
  rw [isFirst'] at first'
  cases first
  cases first'
  have newerRow : NewestFirst r r' :=
    (newestFirst_congr spec.facts spec'.facts spec.pointId spec'.pointId).mpr newer
  obtain ⟨i, hi⟩ := List.mem_iff_getElem?.mp row
  obtain ⟨j, hj⟩ := List.mem_iff_getElem?.mp row'
  refine ⟨i, j, ?_, ?_, ?_⟩
  · rcases Nat.lt_trichotomy i j with less | same | more
    · exact less
    · rw [same, hj] at hi
      exact absurd (by rw [← named, ← named', Option.some.inj hi]) apart
    · have older : NewestFirst r' r := by
        obtain ⟨inside, value⟩ := List.getElem?_eq_some_iff.mp hi
        obtain ⟨inside', value'⟩ := List.getElem?_eq_some_iff.mp hj
        rw [← value, ← value']
        exact List.pairwise_iff_getElem.mp (sorted_mergeEntries l') j i inside' inside more
      exact absurd (named.symm.trans ((newestFirst_antisymm newerRow older).trans named')) apart
  · rw [← h.reorder l' perm, rows, List.map_map, List.getElem?_map, hi, ← named]
    rfl
  · rw [← h.reorder l' perm, rows, List.map_map, List.getElem?_map, hj, ← named']
    rfl

theorem settles_of_faithful (h : Faithful trust now l) : Settles trust now l where
  signers := fun id e here f here' worst => signers_of_faithful h here here' worst
  times := by
    intro id w chosen worst e here f here'
    obtain ⟨r, r', spec, spec', same⟩ := rows_first h here here'
    rw [← verification_first h here chosen worst spec,
      ← verification_first h here' chosen worst spec']
    exact congrArg Row.verification same
  places := by
    intro id agree e here f here' n reaches
    obtain ⟨r, r', spec, spec', same⟩ := rows_first h here here'
    have agrees : ∀ g ∈ others l e, g.facts = e.facts := fun g member =>
      agree g ((mem_first here).mp (List.mem_cons_of_mem e member)) e here
    have agrees' : ∀ g ∈ others l f, g.facts = f.facts := fun g member =>
      agree g ((mem_first here').mp (List.mem_cons_of_mem f member)) f here'
    have available : r.availability = r'.availability := congrArg Row.availability same
    rw [← spec.best agrees, available, spec'.best agrees'] at reaches
    exact reaches
  order := by
    intro e he e' he' f hf f' hf' same same' apart newer
    by_contra older
    have back := (newestFirst_total e' f').resolve_left older
    have apart' : f'.pointId ≠ e'.pointId := fun h =>
      apart (same.trans (h.symm.trans same'.symm))
    obtain ⟨i, j, less, ati, atj⟩ := precedes_of_newest h he hf apart newer
    obtain ⟨j', i', less', atj', ati'⟩ := precedes_of_newest h hf' he' apart' back
    have distinct : ((rows trust now l).map Row.pointId).Nodup := by
      rw [rows, List.map_map]
      exact h.distinct
    rw [← same, ← ati] at ati'
    rw [← same', ← atj] at atj'
    have inside := (List.getElem?_eq_some_iff.mp ati).1
    have inside' := (List.getElem?_eq_some_iff.mp atj).1
    have samei := (List.getElem?_inj inside distinct).mp ati'.symm
    have samej := (List.getElem?_inj inside' distinct).mp atj'.symm
    omega
  sound := by
    intro id agree e here reaches passes
    obtain ⟨r, spec, r₀, row₀, named, same⟩ := row_first h here
    have agrees : ∀ g ∈ others l e, g.facts = e.facts := fun g member =>
      agree g ((mem_first here).mp (List.mem_cons_of_mem e member)) e here
    have available : r.availability = .available := by
      have high := (spec.best agrees _).mpr reaches
      cases value : r.availability <;> rw [value] at high <;>
        first | rfl | exact absurd high (by decide)
    have verified : ∀ g ∈ observations l id, g.signature = .verified := fun g member =>
      verified_of_selectable (passes g member)
    have worst : ∀ g ∈ observations l id,
        signatureRank e.signature ≤ signatureRank g.signature := by
      intro g member
      rw [verified e here, verified g member]
    have verification : (r.verification trust now).selectable = true := by
      rw [verification_first h here here worst spec]
      exact passes e here
    have offered : (viewEntry r₀ trust now).selectable = true := by
      rw [viewEntry_selectable, selectable_iff]
      have available₀ : r.availability = r₀.availability := congrArg Row.availability same
      have verification₀ : r.verification trust now = r₀.verification trust now :=
        congrArg Row.verification same
      rw [← available₀, ← verification₀]
      exact ⟨available, verification⟩
    intro g member
    have safe := (h.selected r₀ row₀ offered).1
    rw [named] at safe
    exact (safe g member).1

/-- Rows depend on nothing but what was observed, and launder nothing, exactly when no
choice of a point's first entry shows. -/
theorem faithful_iff (trust : TrustView) (now : Int) (l : List RunnerEntry) :
    Faithful trust now l ↔ Settles trust now l :=
  ⟨settles_of_faithful, faithful_of_settles⟩

def seenAt (location signer : String) : RunnerEntry :=
  { pointId := "lwp1-aaaaaaaaaaaaaaaaaaaaaaaaaaaaaaaa"
    backupId := "orders"
    runId := "run-1"
    recoveryPointAtMs := 1760000000000
    coveredFromMs := 1759990000000
    coveredToMs := 1760000000000
    locations := [{ locationId := location, availability := none }]
    receiptKey := "logweir/v1/receipts/orders/run-1.json"
    receiptSha256 := "sha256:11"
    manifestKey := none
    manifestSha256 := none
    recordedAt := none
    formatVersion := some "1.8.0"
    availability := .available
    signature := .verified
    signerKeyId := some signer
    remedy := none
    topics := []
    topicsOmitted := none
    ownerDetection := none
    consumerPositions := none
    schemaRegistry := none }

def oneKey : TrustView :=
  { keys := [{ keyId := "trusted", lifecycle := none, notAfter := none, state := .active }] }

/-- The copy met first decides whether the point is offered. -/
theorem two_signers_launder :
    ¬ Faithful oneKey 0 [seenAt "s3://one/p" "trusted", seenAt "s3://two/p" "stranger"] := by
  intro h
  have swapped := h.reorder [seenAt "s3://two/p" "stranger", seenAt "s3://one/p" "trusted"]
    (List.Perm.swap _ _ [])
  revert swapped
  decide +kernel

end Logweir.Catalog
