import Logweir.Inventory.Listing
import Logweir.Api.Authentic

/-!
# One filter set for a list

A page's cursor is bound to the discovery and to the filters by one flat text.  The texts of the
search and of the prefix may hold the mark that stands between them.
-/

set_option autoImplicit false

namespace Logweir.Inventory

open Logweir.Text Logweir.Api

/-- A discovery's UID and the digest of its topics: a UUID, and `sha256:` with hexadecimal
digits. -/
@[ext]
structure Snapshot where
  uid : String
  topicsSha256 : String
  uid_plain : '&' ∉ uid.toList
  topics_plain : '&' ∉ topicsSha256.toList

def Stored.snapshot (state : AppState) (inv : Stored) (uid_plain : '&' ∉ inv.owner.uid.toList) :
    Snapshot where
  uid := inv.owner.uid
  topicsSha256 := inv.topicsSha256 state
  uid_plain
  topics_plain := by
    have start : '&' ∉ "sha256:".toList := by decide
    rw [Stored.topicsSha256, sha256Prefixed, String.toList_append, List.mem_append, not_or]
    refine ⟨start, fun member => ?_⟩
    have digit := hexEncode_lower _ '&' member
    revert digit
    decide

attribute [ext] TopicFilters

namespace TopicFilters

def bound (f : TopicFilters) (snapshot : Snapshot) : String :=
  f.canonical snapshot.uid snapshot.topicsSha256

/-- The second filters search for more: the first ones' prefix holds the rest of the search, the
mark, and the second ones' prefix. -/
def Shifted (f f' : TopicFilters) : Prop :=
  ∃ x, f'.q = f.q ++ ("&prefix=" ++ x) ∧ f.prefix_ = x ++ ("&prefix=" ++ f'.prefix_)

/-- Two filter sets that differ in where the search ends and the prefix begins. -/
def Straddles (f f' : TopicFilters) : Prop :=
  f.internal = f'.internal ∧ f.errored = f'.errored ∧ (Shifted f f' ∨ Shifted f' f)

theorem internalWord_plain (f : TopicFilters) : '&' ∉ f.internalWord.toList := by
  unfold internalWord
  cases f.internal <;> decide

theorem erroredWord_plain (f : TopicFilters) : '&' ∉ f.erroredWord.toList := by
  unfold erroredWord
  cases f.errored <;> decide

theorem internalWord_inj {f f' : TopicFilters} (same : f.internalWord = f'.internalWord) :
    f.internal = f'.internal := by
  unfold internalWord at same
  cases here : f.internal <;> cases there : f'.internal <;> rw [here, there] at same <;>
    first | rfl | exact absurd same (by decide)

theorem erroredWord_inj {f f' : TopicFilters} (same : f.erroredWord = f'.erroredWord) :
    f.errored = f'.errored := by
  unfold erroredWord at same
  cases here : f.errored <;> cases there : f'.errored <;> rw [here, there] at same <;>
    first | rfl | exact absurd same (by decide)

def searched (f : TopicFilters) : List Char :=
  f.q.toList ++ ('&' :: "prefix=".toList ++ f.prefix_.toList)

theorem bound_toList (f : TopicFilters) (snapshot : Snapshot) :
    (f.bound snapshot).toList =
      ("uid=" ++ snapshot.uid).toList ++ '&' :: (("topics=" ++ snapshot.topicsSha256).toList ++
        '&' :: (("q=".toList ++ f.searched ++ '&' :: ("internal=" ++ f.internalWord).toList) ++
          '&' :: ("errored=" ++ f.erroredWord).toList)) := by
  have topics : "&topics=".toList = '&' :: "topics=".toList := by decide
  have q : "&q=".toList = '&' :: "q=".toList := by decide
  have prefix_ : "&prefix=".toList = '&' :: "prefix=".toList := by decide
  have internal : "&internal=".toList = '&' :: "internal=".toList := by decide
  have errored : "&errored=".toList = '&' :: "errored=".toList := by decide
  simp only [bound, canonical, searched, String.toList_append, topics, q, prefix_, internal,
    errored, List.append_assoc, List.cons_append]

theorem searched_eq_iff (f f' : TopicFilters) :
    f.searched = f'.searched ↔
      (f.q = f'.q ∧ f.prefix_ = f'.prefix_) ∨ Shifted f f' ∨ Shifted f' f := by
  have mark : "&prefix=".toList = '&' :: "prefix=".toList := by decide
  have plain : '&' ∉ "prefix=".toList := by decide
  have shifted (g g' : TopicFilters) : Shifted g g' ↔
      ∃ x, g'.q.toList = g.q.toList ++ ('&' :: "prefix=".toList ++ x) ∧
        g.prefix_.toList = x ++ ('&' :: "prefix=".toList ++ g'.prefix_.toList) := by
    constructor
    · rintro ⟨x, search, start⟩
      refine ⟨x.toList, ?_, ?_⟩
      · rw [search, String.toList_append, String.toList_append, mark]
      · rw [start, String.toList_append, String.toList_append, mark]
    · rintro ⟨x, search, start⟩
      have text : (String.ofList x).toList = x := String.toList_ofList
      refine ⟨String.ofList x, String.ext ?_, String.ext ?_⟩
      · rw [search, String.toList_append, String.toList_append, mark, text]
      · rw [start, String.toList_append, String.toList_append, mark, text]
  rw [searched, searched, around_mark_iff plain, shifted, shifted, String.toList_inj,
    String.toList_inj]

theorem bound_eq_iff (f f' : TopicFilters) (snapshot snapshot' : Snapshot) :
    f.bound snapshot = f'.bound snapshot' ↔
      snapshot = snapshot' ∧ (f = f' ∨ Straddles f f') := by
  have named {start : String} (mark : '&' ∉ start.toList) {text : String}
      (plain : '&' ∉ text.toList) : '&' ∉ (start ++ text).toList := by
    rw [String.toList_append, List.mem_append, not_or]
    exact ⟨mark, plain⟩
  have cancel {start text text' : String} (same : (start ++ text).toList = (start ++ text').toList) :
      text = text' := by
    rw [String.toList_append, String.toList_append] at same
    exact String.toList_inj.mp (List.append_cancel_left same)
  constructor
  · intro same
    rw [← String.toList_inj, bound_toList, bound_toList] at same
    obtain ⟨uid, same⟩ := append_sep_inj (named (by decide) snapshot.uid_plain)
      (named (by decide) snapshot'.uid_plain) same
    obtain ⟨topics, same⟩ := append_sep_inj (named (by decide) snapshot.topics_plain)
      (named (by decide) snapshot'.topics_plain) same
    obtain ⟨same, errored⟩ := append_sep_inj_right (named (by decide) f.erroredWord_plain)
      (named (by decide) f'.erroredWord_plain) same
    obtain ⟨same, internal⟩ := append_sep_inj_right (named (by decide) f.internalWord_plain)
      (named (by decide) f'.internalWord_plain) same
    have errored := erroredWord_inj (cancel errored)
    have internal := internalWord_inj (cancel internal)
    refine ⟨Snapshot.ext (cancel uid) (cancel topics), ?_⟩
    rcases (searched_eq_iff f f').mp (List.append_cancel_left same) with ⟨q, prefix_⟩ | shifted
    · exact .inl (TopicFilters.ext q prefix_ internal errored)
    · exact .inr ⟨internal, errored, shifted⟩
  · rintro ⟨rfl, rfl | ⟨internal, errored, shifted⟩⟩
    · rfl
    · have searched := (searched_eq_iff f f').mpr (.inr shifted)
      rw [← String.toList_inj, bound_toList, bound_toList, searched, internalWord, internalWord,
        internal, erroredWord, erroredWord, errored]

end TopicFilters

section

variable (state : AppState)

/-- What the service does for two filter sets of two snapshots that are not the same: no text is
bound to both, and a cursor sealed under the first is not valid under the second. -/
def Separated (snapshot snapshot' : Snapshot) (f f' : TopicFilters) : Prop :=
  f.bound snapshot ≠ f'.bound snapshot' ∧
    ∀ (actor workspace token : String) (issued now : DateTime),
      openPosition state
        (topicsScope actor workspace f' snapshot'.uid snapshot'.topicsSha256)
        (seal_ state.crates state.cursorKey
          (topicsScope actor workspace f snapshot.uid snapshot.topicsSha256) token issued) now =
        .error cursorInvalid

/-- A page stays in one snapshot and one filter set, except between two filter sets of a snapshot
that differ only in where the search ends and the prefix begins. -/
theorem separated_iff (documented : state.crates.Documented) {snapshot snapshot' : Snapshot}
    {f f' : TopicFilters} (differ : snapshot = snapshot' → f ≠ f') :
    Separated state snapshot snapshot' f f' ↔ ¬(snapshot = snapshot' ∧ f.Straddles f') := by
  constructor
  · rintro ⟨texts, _⟩ ⟨same, straddles⟩
    exact texts ((f.bound_eq_iff f' snapshot snapshot').mpr ⟨same, .inr straddles⟩)
  · intro apart
    have texts : f.bound snapshot ≠ f'.bound snapshot' := by
      intro same
      obtain ⟨here, equal | straddles⟩ := (f.bound_eq_iff f' snapshot snapshot').mp same
      · exact differ here equal
      · exact apart ⟨here, straddles⟩
    refine ⟨texts, fun actor workspace token issued now => ?_⟩
    have refused : open_ state.crates state.cursorKey
        (topicsScope actor workspace f' snapshot'.uid snapshot'.topicsSha256)
        (seal_ state.crates state.cursorKey
          (topicsScope actor workspace f snapshot.uid snapshot.topicsSha256) token issued) now =
        .error .invalid := by
      by_contra passes
      exact bound_of_open (s := ⟨_, token, issued⟩) state.crates state.cursorKey documented passes
        (.inr (.inr (.inr texts)))
    rw [openPosition, refused]

end

def sampleSnapshot : Snapshot where
  uid := "0f1e2d3c-4b5a-6978-8796-a5b4c3d2e1f0"
  topicsSha256 := "sha256:e3b0c44298fc1c149afbf4c8996fb92427ae41e4649b934ca495991b7852b855"
  uid_plain := by decide
  topics_plain := by decide

/-- `?q=a%26prefix%3Db&prefix=c`. -/
def longSearch : TopicsQuery where
  q := some "a&prefix=b"
  prefix_ := some "c"

/-- `?q=a&prefix=b%26prefix%3Dc`. -/
def longPrefix : TopicsQuery where
  q := some "a"
  prefix_ := some "b&prefix=c"

def longSearchFilters : TopicFilters := ⟨"a&prefix=b", "c", .exclude, .include_⟩

def longPrefixFilters : TopicFilters := ⟨"a", "b&prefix=c", .exclude, .include_⟩

/-- A search with no mark in it stays apart from another one. -/
theorem plain_searches_separated :
    Separated sampleState sampleSnapshot sampleSnapshot ⟨"a", "", .exclude, .include_⟩
      ⟨"b", "", .exclude, .include_⟩ := by
  have differ : ("a" : String) ≠ "b" := by decide
  refine (separated_iff sampleState sampleCrates_documented fun _ same =>
    differ (congrArg TopicFilters.q same)).mpr ?_
  have short {text x : String} (search : text = "a" ++ ("&prefix=" ++ x) ∨
      text = "b" ++ ("&prefix=" ++ x)) : 9 ≤ text.length := by
    have mark : "&prefix=".length = 8 := by decide
    have first : "a".length = 1 ∧ "b".length = 1 := by decide
    rcases search with rfl | rfl <;> rw [String.length_append, String.length_append] <;> omega
  rintro ⟨_, _, _, ⟨x, search, _⟩ | ⟨x, search, _⟩⟩
  · exact absurd (short (.inl search)) (by decide)
  · exact absurd (short (.inr search)) (by decide)

/-- Two accepted queries with different filters have one bound text, and each one's first cursor
opens under the other. -/
theorem marked_searches_straddle :
    parseFilters sampleState.toLowercase longSearch = .ok longSearchFilters ∧
    parseFilters sampleState.toLowercase longPrefix = .ok longPrefixFilters ∧
    longSearchFilters ≠ longPrefixFilters ∧
    ¬Separated sampleState sampleSnapshot sampleSnapshot longSearchFilters longPrefixFilters ∧
    openPosition sampleState
      (topicsScope "ada" "team-a" longPrefixFilters sampleSnapshot.uid sampleSnapshot.topicsSha256)
      (seal_ sampleState.crates sampleState.cursorKey
        (topicsScope "ada" "team-a" longSearchFilters sampleSnapshot.uid
          sampleSnapshot.topicsSha256) (positionToken 0 200) sampleNow) sampleNow = .ok (0, 200) := by
  have straddles : longSearchFilters.Straddles longPrefixFilters :=
    ⟨rfl, rfl, .inr ⟨"b", by decide, by decide⟩⟩
  have texts : longSearchFilters.bound sampleSnapshot = longPrefixFilters.bound sampleSnapshot :=
    (TopicFilters.bound_eq_iff _ _ _ _).mpr ⟨rfl, .inr straddles⟩
  have differ : longSearchFilters.q ≠ longPrefixFilters.q := by decide
  refine ⟨rfl, rfl, fun same => differ (congrArg TopicFilters.q same),
    fun separated => separated.1 texts, ?_⟩
  have scope : topicsScope "ada" "team-a" longPrefixFilters sampleSnapshot.uid
        sampleSnapshot.topicsSha256 =
      topicsScope "ada" "team-a" longSearchFilters sampleSnapshot.uid
        sampleSnapshot.topicsSha256 :=
    congrArg (CursorScope.mk "ada" ROUTE_TOPICS "team-a") texts.symm
  rw [scope]
  exact openPosition_seal sampleState sampleCrates_documented (by decide) (by decide)
    (by decide +kernel) (by decide)

end Logweir.Inventory
