import Logweir.Catalog.Faithful
import Logweir.Library.Packing

/-!
# The materialised view

`weirkeeper::catalog_view::materialise`.  The newest of the merged rows, each as the line it is
written on, are packed into pages; what the pages do not hold is counted.  The line of a row is a
parameter.
-/

set_option autoImplicit false

namespace Logweir.Catalog

open Logweir.Packing (Packing)

def i64OfUsize (n : Nat) : Int := if n ≤ 9223372036854775807 then n else 9223372036854775807

structure ViewLimits where
  viewLimit : Nat
  pageMaxBytes : Nat
  maxPages : Nat
deriving DecidableEq, Repr

structure WindowStates where
  revoked : Nat
  verifiedHistorical : Nat
deriving DecidableEq, Repr

structure PageDraft where
  index : Nat
  entries : List ViewEntry
  body : String
  sha256 : String
deriving DecidableEq, Repr

structure View where
  pages : List PageDraft
  entries : Nat
  truncated : Bool
  droppedForSpace : Nat
  droppedOversized : Nat
  beyondWindow : Bool
  window : WindowStates
deriving DecidableEq, Repr

structure PageFence where
  index : Int
  configMapName : String
  count : Int
  firstPointId : String
  lastPointId : String
  minPointId : String
  maxPointId : String
  newestMs : Int
  oldestMs : Int
  sha256 : String
deriving DecidableEq, Inhabited, Repr

structure IndexDocument where
  generation : String
  viewLimit : Int
  truncated : Bool
  entries : Int
  pages : List PageFence
deriving DecidableEq, Repr

/-- The fence of a page; for an empty one the call panics. -/
def PageDraft.fence (page : PageDraft) (configMapName : String) : Except String PageFence :=
  let ids := (page.entries.map fun e => e.pointId).insertionSort (· ≤ ·)
  match page.entries.head?, page.entries.getLast?, ids.head?, ids.getLast? with
  | some first, some last, some minPointId, some maxPointId =>
      .ok
        { index := i64OfUsize page.index
          configMapName
          count := i64OfUsize page.entries.length
          firstPointId := first.pointId
          lastPointId := last.pointId
          minPointId
          maxPointId
          newestMs := first.recoveryPointAtMs
          oldestMs := last.recoveryPointAtMs
          sha256 := page.sha256 }
  | _, _, _, _ => .error "a page draft is never empty"

def PageDraft.numbered (page : PageDraft) (index : Nat) : PageDraft := { page with index }

def indexDocument (generation : String) (limits : ViewLimits) (view : View) (names : List String) :
    Except String IndexDocument :=
  (view.pages.zipIdx.mapM fun (page : PageDraft × Nat) =>
    (page.1.numbered page.2).fence ((names[page.2]?).getD "")).map fun pages =>
      { generation
        viewLimit := i64OfUsize limits.viewLimit
        truncated := view.truncated
        entries := i64OfUsize view.entries
        pages }

def WindowStates.note (states : WindowStates) (v : Verification) : WindowStates :=
  match v with
  | .revoked => { states with revoked := states.revoked + 1 }
  | .verifiedHistorical => { states with verifiedHistorical := states.verifiedHistorical + 1 }
  | _ => states

structure Filling where
  pages : List PageDraft
  current : List ViewEntry
  currentBytes : Nat
  placed : Nat
  droppedForSpace : Nat
  droppedOversized : Nat
  states : WindowStates

section

variable (line : ViewEntry → String) (sha256 : String → String)

def costOf (entry : ViewEntry) : Nat := (line entry).utf8ByteSize + 1

def bodyOf (entries : List ViewEntry) : String :=
  String.join (entries.map fun entry => line entry ++ "\n")

def sealPage (entries : List ViewEntry) : PageDraft :=
  { index := 0, entries, body := bodyOf line entries, sha256 := sha256 (bodyOf line entries) }

def Filling.turned (limits : ViewLimits) (f : Filling) (entry : ViewEntry) : Filling :=
  if f.current ≠ [] ∧ limits.pageMaxBytes < f.currentBytes + costOf line entry then
    { f with pages := f.pages ++ [sealPage line sha256 f.current], current := [], currentBytes := 0 }
  else f

def Filling.add (limits : ViewLimits) (f : Filling) (entry : ViewEntry) : Filling :=
  if limits.pageMaxBytes < costOf line entry then
    { f with droppedOversized := f.droppedOversized + 1 }
  else
    let f := f.turned line sha256 limits entry
    if limits.maxPages ≤ f.pages.length ∧ f.current = [] then
      { f with droppedForSpace := f.droppedForSpace + 1 }
    else
      { f with
        states := f.states.note entry.verification
        currentBytes := f.currentBytes + costOf line entry
        current := f.current ++ [entry]
        placed := f.placed + 1 }

def fill (limits : ViewLimits) (window : List ViewEntry) : Filling :=
  window.foldl (Filling.add line sha256 limits) ⟨[], [], 0, 0, 0, 0, ⟨0, 0⟩⟩

def windowOf (entries : List RunnerEntry) (trust : TrustView) (limits : ViewLimits) (now : Int) :
    List ViewEntry :=
  ((mergeEntries entries).take limits.viewLimit).map fun e => viewEntry e trust now

def materialise (entries : List RunnerEntry) (total : Int64) (trust : TrustView)
    (limits : ViewLimits) (now : Int) : View :=
  let mergedLen := (mergeEntries entries).length
  let f := fill line sha256 limits (windowOf entries trust limits now)
  { pages := if f.current ≠ [] then f.pages ++ [sealPage line sha256 f.current] else f.pages
    entries := f.placed
    truncated := decide (total.toInt > i64OfUsize f.placed ∨ mergedLen > f.placed ∨
      f.droppedForSpace > 0 ∨ f.droppedOversized > 0)
    droppedForSpace := f.droppedForSpace
    droppedOversized := f.droppedOversized
    beyondWindow := decide (mergedLen > limits.viewLimit ∨ total.toInt > i64OfUsize mergedLen)
    window := f.states }

end

def Filling.packing (f : Filling) : Packing ViewEntry :=
  ⟨f.pages.map fun page => page.entries, f.current, f.currentBytes, f.placed, f.droppedForSpace,
    f.droppedOversized⟩

section Pages

variable (line : ViewEntry → String) (sha256 : String → String) (limits : ViewLimits)

theorem packing_turned (f : Filling) (entry : ViewEntry) :
    (f.turned line sha256 limits entry).packing =
      f.packing.turned limits.pageMaxBytes (costOf line entry) := by
  unfold Filling.turned Packing.turned Filling.packing
  dsimp only
  split
  · simp [sealPage]
  · rfl

theorem packing_add (f : Filling) (entry : ViewEntry) :
    (f.add line sha256 limits entry).packing =
      f.packing.add (costOf line) limits.pageMaxBytes limits.maxPages entry := by
  unfold Filling.add Packing.add
  split
  · rfl
  · rw [← packing_turned line sha256]
    dsimp only
    have pages : (f.turned line sha256 limits entry).packing.pages.length =
        (f.turned line sha256 limits entry).pages.length := List.length_map _
    rw [pages]
    split
    · rename_i full
      exact (if_pos full).symm
    · rename_i room
      exact (if_neg room).symm

theorem packing_fill (window : List ViewEntry) :
    (fill line sha256 limits window).packing =
      window.foldl (Packing.add (costOf line) limits.pageMaxBytes limits.maxPages)
        Packing.start := by
  have every : ∀ (window : List ViewEntry) (f : Filling),
      (window.foldl (Filling.add line sha256 limits) f).packing =
        window.foldl (Packing.add (costOf line) limits.pageMaxBytes limits.maxPages) f.packing := by
    intro window
    induction window with
    | nil => exact fun _ => rfl
    | cons entry window ih =>
        intro f
        rw [List.foldl_cons, List.foldl_cons, ih, packing_add]
  exact every window _

/-- Every page is the sealing of its entries. -/
def Filling.Sealed (line : ViewEntry → String) (sha256 : String → String) (f : Filling) : Prop :=
  ∀ page ∈ f.pages, page = sealPage line sha256 page.entries

section

variable {line sha256 limits}

theorem Filling.Sealed.add {f : Filling} (sealed : f.Sealed line sha256) (entry : ViewEntry) :
    (f.add line sha256 limits entry).Sealed line sha256 := by
  have turned : (f.turned line sha256 limits entry).Sealed line sha256 := by
    unfold Filling.turned
    split
    · intro page member
      rcases List.mem_append.mp member with old | last
      · exact sealed page old
      · rw [List.mem_singleton.mp last]
        rfl
    · exact sealed
  unfold Filling.add
  split
  · exact sealed
  · dsimp only
    split
    · exact turned
    · exact turned

end

theorem sealed_fill (window : List ViewEntry) :
    (fill line sha256 limits window).Sealed line sha256 := by
  have every : ∀ (window : List ViewEntry) (f : Filling), f.Sealed line sha256 →
      (window.foldl (Filling.add line sha256 limits) f).Sealed line sha256 := by
    intro window
    induction window with
    | nil => exact fun _ sealed => sealed
    | cons entry window ih => exact fun f sealed => ih _ (sealed.add entry)
  exact every window _ fun page member => absurd member List.not_mem_nil

/-- The states are those of the rows that are placed. -/
def Filling.Told (f : Filling) : Prop :=
  f.states = (f.packing.pages.flatten ++ f.packing.current).foldl
    (fun states e => states.note e.verification) ⟨0, 0⟩

theorem Filling.Told.add {f : Filling} {line : ViewEntry → String} {sha256 : String → String}
    {limits : ViewLimits} (told : f.Told) (entry : ViewEntry) :
    (f.add line sha256 limits entry).Told := by
  have turned : (f.turned line sha256 limits entry).Told := by
    unfold Filling.turned
    split
    · unfold Filling.Told Filling.packing at told ⊢
      simpa [sealPage] using told
    · exact told
  unfold Filling.add
  split
  · exact told
  · dsimp only
    split
    · exact turned
    · unfold Filling.Told at turned ⊢
      unfold Filling.packing at turned ⊢
      dsimp only at turned ⊢
      rw [← List.append_assoc, List.foldl_append, ← turned]
      rfl

theorem told_fill (window : List ViewEntry) : (fill line sha256 limits window).Told := by
  have every : ∀ (window : List ViewEntry) (f : Filling), f.Told →
      (window.foldl (Filling.add line sha256 limits) f).Told := by
    intro window
    induction window with
    | nil => exact fun _ told => told
    | cons entry window ih => exact fun f told => ih _ (told.add entry)
  exact every window _ rfl

variable {line}

theorem utf8ByteSize_bodyOf (entries : List ViewEntry) :
    (bodyOf line entries).utf8ByteSize = (entries.map (costOf line)).sum := by
  unfold bodyOf
  induction entries with
  | nil => rfl
  | cons entry entries ih =>
      rw [List.map_cons, String.join_cons, String.utf8ByteSize_append, ih, List.map_cons,
        List.sum_cons, String.utf8ByteSize_append]
      rfl

end Pages

/-- The page's point ids and recovery times are within its fence. -/
structure PageFence.Holds (fence : PageFence) (e : ViewEntry) : Prop where
  min : fence.minPointId ≤ e.pointId
  max : e.pointId ≤ fence.maxPointId
  oldest : fence.oldestMs ≤ e.recoveryPointAtMs
  newest : e.recoveryPointAtMs ≤ fence.newestMs

theorem rel_head {α : Type} {r : α → α → Prop} (refl : ∀ a, r a a) {l : List α} {first x : α}
    (sorted : l.Pairwise r) (head : l.head? = some first) (member : x ∈ l) : r first x := by
  cases l with
  | nil => cases head
  | cons a l =>
      cases head
      rcases List.mem_cons.mp member with rfl | later
      · exact refl x
      · exact (List.pairwise_cons.mp sorted).1 x later

theorem rel_getLast {α : Type} {r : α → α → Prop} (refl : ∀ a, r a a) {l : List α} {last x : α}
    (sorted : l.Pairwise r) (end_ : l.getLast? = some last) (member : x ∈ l) : r x last := by
  have head : l.reverse.head? = some last := by rw [List.head?_reverse, end_]
  exact rel_head (r := fun a b => r b a) refl (List.pairwise_reverse.mpr sorted) head
    (List.mem_reverse.mpr member)

theorem fence_holds (page : PageDraft) (some_ : page.entries ≠ [])
    (newestFirst : page.entries.Pairwise fun a b => b.recoveryPointAtMs ≤ a.recoveryPointAtMs)
    (configMapName : String) : ∃ fence, page.fence configMapName = .ok fence ∧
      fence.index = i64OfUsize page.index ∧ ∀ e ∈ page.entries, fence.Holds e := by
  have ids : (page.entries.map fun e => e.pointId).insertionSort (· ≤ ·) ≠ [] := by
    rw [ne_eq, ← List.length_eq_zero_iff, List.length_insertionSort, List.length_map,
      List.length_eq_zero_iff]
    exact some_
  obtain ⟨first, head⟩ := Option.ne_none_iff_exists'.mp (List.head?_eq_none_iff.not.mpr some_)
  obtain ⟨last, end_⟩ := Option.ne_none_iff_exists'.mp (List.getLast?_eq_none_iff.not.mpr some_)
  obtain ⟨least, headId⟩ := Option.ne_none_iff_exists'.mp (List.head?_eq_none_iff.not.mpr ids)
  obtain ⟨most, endId⟩ := Option.ne_none_iff_exists'.mp (List.getLast?_eq_none_iff.not.mpr ids)
  refine ⟨_, by simp only [PageDraft.fence, head, end_, headId, endId]; rfl, rfl, ?_⟩
  intro e member
  have sorted := List.pairwise_insertionSort (· ≤ · : String → String → Prop)
    (page.entries.map fun e => e.pointId)
  have listed : e.pointId ∈ (page.entries.map fun e => e.pointId).insertionSort (· ≤ ·) :=
    (List.mem_insertionSort _).mpr (List.mem_map_of_mem member)
  exact
    { min := rel_head le_refl sorted headId listed
      max := rel_getLast le_refl sorted endId listed
      oldest := rel_getLast (r := fun a b : ViewEntry => b.recoveryPointAtMs ≤ a.recoveryPointAtMs)
        (fun _ => le_rfl) newestFirst end_ member
      newest := rel_head (r := fun a b : ViewEntry => b.recoveryPointAtMs ≤ a.recoveryPointAtMs)
        (fun _ => le_rfl) newestFirst head member }

section Window

variable (line : ViewEntry → String) (sha256 : String → String)

def fitting (entries : List RunnerEntry) (trust : TrustView) (limits : ViewLimits) (now : Int) :
    List ViewEntry :=
  (windowOf entries trust limits now).filter fun e => costOf line e ≤ limits.pageMaxBytes

/-- The view is the newest rows: its pages hold the first of those that fit, and the rest of them is
counted. -/
structure ExactWindow (entries : List RunnerEntry) (total : Int64) (trust : TrustView)
    (limits : ViewLimits) (now : Int) (view : View) : Prop where
  nonempty : ∀ page ∈ view.pages, page.entries ≠ []
  few : view.pages.length ≤ limits.maxPages
  bodies : ∀ page ∈ view.pages, page.body = bodyOf line page.entries
  small : ∀ page ∈ view.pages, page.body.utf8ByteSize ≤ limits.pageMaxBytes
  rows : view.pages.flatMap (fun page => page.entries) =
    (fitting line entries trust limits now).take view.entries
  placed : (view.pages.flatMap fun page => page.entries).length = view.entries
  oversized : view.droppedOversized =
    ((windowOf entries trust limits now).filter fun e => limits.pageMaxBytes < costOf line e).length
  counted : view.entries + view.droppedForSpace + view.droppedOversized =
    min limits.viewLimit (mergeEntries entries).length
  truncated : view.truncated = false ↔
    view.entries = (mergeEntries entries).length ∧ total.toInt ≤ (mergeEntries entries).length
  states : view.window = (view.pages.flatMap fun page => page.entries).foldl
    (fun states e => states.note e.verification) ⟨0, 0⟩
  /-- The index document has a fence for every page, and no fence excludes a row of its page. -/
  fenced : ∀ generation names, ∃ document, indexDocument generation limits view names = .ok document ∧
    document.pages.length = view.pages.length ∧
    ∀ i page fence, view.pages[i]? = some page → document.pages[i]? = some fence →
      fence.index = i64OfUsize i ∧ ∀ e ∈ page.entries, fence.Holds e

variable {line sha256}

theorem newestFirst_windowOf (entries : List RunnerEntry) (trust : TrustView) (limits : ViewLimits)
    (now : Int) : (windowOf entries trust limits now).Pairwise
      fun a b => b.recoveryPointAtMs ≤ a.recoveryPointAtMs := by
  refine List.pairwise_map.mpr (((sorted_mergeEntries entries).sublist
    (List.take_sublist _ _)).imp fun first => ?_)
  rcases first with less | ⟨same, _⟩
  · exact le_of_lt less
  · exact le_of_eq same.symm

theorem toInt_le_i64OfUsize_iff (total : Int64) (n : Nat) :
    total.toInt ≤ i64OfUsize n ↔ total.toInt ≤ n := by
  have largest := Int64.toInt_le total
  rw [Int64.toInt_maxValue] at largest
  unfold i64OfUsize
  split
  · rfl
  · omega

theorem indexDocument_fenced {limits : ViewLimits} {view : View}
    (some_ : ∀ page ∈ view.pages, page.entries ≠ [])
    (newestFirst : ∀ page ∈ view.pages,
      page.entries.Pairwise fun a b => b.recoveryPointAtMs ≤ a.recoveryPointAtMs)
    (generation : String) (names : List String) :
    ∃ document, indexDocument generation limits view names = .ok document ∧
      document.pages.length = view.pages.length ∧
      ∀ i page fence, view.pages[i]? = some page → document.pages[i]? = some fence →
        fence.index = i64OfUsize i ∧ ∀ e ∈ page.entries, fence.Holds e := by
  have each (entry : PageDraft × Nat) (member : entry ∈ view.pages.zipIdx) :
      ∃ fence, (entry.1.numbered entry.2).fence ((names[entry.2]?).getD "") = .ok fence ∧
        fence.index = i64OfUsize entry.2 ∧ ∀ e ∈ entry.1.entries, fence.Holds e := by
    have listed : entry.1 ∈ view.pages := List.fst_mem_of_mem_zipIdx member
    exact fence_holds (entry.1.numbered entry.2) (some_ entry.1 listed) (newestFirst entry.1 listed) _
  choose! fence answered index holds using each
  refine ⟨_, by rw [indexDocument, Results.mapM_ok answered]; rfl, ?_, ?_⟩
  · simp
  · intro i page fence' here there
    have entry : view.pages.zipIdx[i]? = some (page, i) := by
      rw [List.getElem?_zipIdx, here]
      simp
    have member := List.mem_of_getElem? entry
    rw [List.getElem?_map, entry] at there
    cases there
    exact ⟨index _ member, holds _ member⟩

def Filling.sealed (line : ViewEntry → String) (sha256 : String → String) (f : Filling) :
    List PageDraft :=
  if f.current ≠ [] then f.pages ++ [sealPage line sha256 f.current] else f.pages

theorem map_entries_sealed (line : ViewEntry → String) (sha256 : String → String) (f : Filling) :
    (f.sealed line sha256).map (fun page => page.entries) = f.packing.closed := by
  unfold Filling.sealed Packing.closed
  by_cases blank : f.current = []
  · rw [if_neg (not_not.mpr blank)]
    exact (if_pos blank).symm
  · rw [if_pos blank, List.map_append]
    exact (if_neg blank).symm

theorem Filling.Sealed.sealed {f : Filling} (pages : f.Sealed line sha256) :
    ∀ page ∈ f.sealed line sha256, page = sealPage line sha256 page.entries := by
  intro page member
  unfold Filling.sealed at member
  split at member
  · rcases List.mem_append.mp member with old | last
    · exact pages page old
    · rw [List.mem_singleton.mp last]
      rfl
  · exact pages page member

end Window

end Logweir.Catalog
