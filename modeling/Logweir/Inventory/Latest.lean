import Logweir.Inventory.Pages

/-!
# The latest discovery of a connection

`logweir_api::routes::topic_discoveries::by_connection` with `latest=true`: the newest attempt and
the newest success, among the first objects the store lists.
-/

set_option autoImplicit false

namespace Logweir.Inventory

open Logweir.Text Logweir.Api

def CONNECTION_LABEL : String := "logweir.dev/connection"

def LATEST_SCAN : Nat := 50

inductive CheckLifecycle where
  | pending
  | queued
  | running
  | succeeded
  | failed
  | cancelled
  | unknown
  deriving DecidableEq

structure TopicDiscoveryCr where
  name : String
  labels : List (String × String)
  /-- `metadata.creationTimestamp`. -/
  creationTimestamp : Option Int
  /-- `status.phase`. -/
  phase : Option String
  deriving DecidableEq

def lifecycleOf (object : TopicDiscoveryCr) : CheckLifecycle :=
  match object.phase.getD "Pending" with
  | "Pending" => .pending
  | "Queued" => .queued
  | "Running" => .running
  | "Succeeded" => .succeeded
  | "Failed" => .failed
  | "Cancelled" => .cancelled
  | _ => .unknown

structure DiscoveryView where
  id : String
  createdAt : Option Int
  state : CheckLifecycle
  deriving DecidableEq

def project (object : TopicDiscoveryCr) : DiscoveryView where
  id := object.name
  createdAt := object.creationTimestamp
  state := lifecycleOf object

structure DiscoveryLatestResponse where
  latestAttempt : Option DiscoveryView
  lastSuccessful : Option DiscoveryView

structure PageRequest where
  limit : Nat
  continueToken : Option String
  labelSelector : Option String

def selects (selector : String) (object : TopicDiscoveryCr) : Bool :=
  match splitOnce '=' selector with
  | none => false
  | some (key, value) => object.labels.lookup key = some value

structure Discoveries where
  objects : List TopicDiscoveryCr
  ascending : objects.Pairwise fun a b => a.name < b.name

def Discoveries.list (stored : Discoveries) (page : PageRequest) : List TopicDiscoveryCr :=
  (stored.objects.filter fun object => page.labelSelector.all fun selector =>
    selects selector object).take page.limit

structure Routes where
  /-- An actor's right to read a workspace's discoveries. -/
  authorize : String → String → Except ApiError Unit
  /-- A workspace's connection of a name. -/
  connection : String → String → Except KubeFailure Unit
  discoveries : String → Except KubeFailure Discoveries

def checkName (name : String) : Except ApiError Unit :=
  if isDnsSubdomain name then .ok () else .error .notFound

def maxByKey {α β : Type} [LT β] [DecidableLT β] (key : α → β) : List α → Option α
  | [] => none
  | item :: items => some (items.foldl (fun best next => if key next < key best then best else next) item)

def created (object : TopicDiscoveryCr) : Option Int := object.creationTimestamp

instance decidableEarlier : DecidableLT (Option Int) :=
  fun a b => inferInstanceAs (Decidable (Option.lt (· < ·) a b))

def newest (items : List TopicDiscoveryCr) : Option TopicDiscoveryCr := maxByKey created items

def byConnectionLatest (routes : Routes) (actor ws connection : String) :
    Except ApiError DiscoveryLatestResponse := do
  routes.authorize actor ws
  checkName connection
  (routes.connection ws connection).mapError KubeFailure.intoApiError
  let page : PageRequest :=
    { limit := LATEST_SCAN
      continueToken := none
      labelSelector := some (CONNECTION_LABEL ++ "=" ++ connection) }
  let stored ← (routes.discoveries ws).mapError KubeFailure.intoApiError
  let items := stored.list page
  let succeeded := items.filter fun d => lifecycleOf d = .succeeded
  return {
    latestAttempt := (newest items).map project
    lastSuccessful := (newest succeeded).map project }

theorem maxByKey_spec {α β : Type} [LT β] [DecidableLT β] (key : α → β)
    (asymm : ∀ {a b : β}, a < b → ¬b < a) (trans : ∀ {a b c : β}, ¬a < b → ¬b < c → ¬a < c)
    {items : List α} {best : α} (found : maxByKey key items = some best) :
    best ∈ items ∧ ∀ d ∈ items, ¬key best < key d := by
  cases items with
  | nil => cases found
  | cons item items =>
      obtain rfl := Option.some.inj found
      clear found
      induction items generalizing item with
      | nil =>
          refine ⟨List.mem_cons_self, fun d member => ?_⟩
          rw [List.mem_singleton.mp member]
          exact fun same => asymm same same
      | cons next items ih =>
          rw [List.foldl_cons]
          split
          · rename_i below
            obtain ⟨member, above⟩ := ih item
            refine ⟨?_, fun d here => ?_⟩
            · rcases List.mem_cons.mp member with same | later
              · rw [same]
                exact List.mem_cons_self
              · exact List.mem_cons_of_mem _ (List.mem_cons_of_mem _ later)
            · have first := above item List.mem_cons_self
              rcases List.mem_cons.mp here with rfl | later
              · exact first
              · rcases List.mem_cons.mp later with rfl | later
                · exact trans first (asymm below)
                · exact above d (List.mem_cons_of_mem _ later)
          · rename_i notBelow
            obtain ⟨member, above⟩ := ih next
            refine ⟨List.mem_cons_of_mem _ member, fun d here => ?_⟩
            rcases List.mem_cons.mp here with rfl | later
            · exact trans (above next List.mem_cons_self) notBelow
            · exact above d later

theorem maxByKey_eq_none {α β : Type} [LT β] [DecidableLT β] {key : α → β} {items : List α} :
    maxByKey key items = none ↔ items = [] := by
  cases items with
  | nil => exact ⟨fun _ => rfl, fun _ => rfl⟩
  | cons item items =>
      constructor
      · exact fun none_ => absurd none_ (Option.some_ne_none _)
      · exact fun empty => absurd empty (List.cons_ne_nil _ _)

theorem earlier_asymm : ∀ {a b : Option Int}, a < b → ¬b < a
  | none, _, _ => Option.not_lt_none
  | some _, none, below => absurd below Option.not_lt_none
  | some _, some _, below => fun above => by
      rw [Option.some_lt_some] at below above
      omega

theorem notEarlier_trans : ∀ {a b c : Option Int}, ¬a < b → ¬b < c → ¬a < c
  | _, _, none, _, _ => Option.not_lt_none
  | _, none, some _, _, below => absurd Option.none_lt_some below
  | none, some _, some _, below, _ => absurd Option.none_lt_some below
  | some _, some _, some _, below, above => by
      rw [Option.some_lt_some] at below above ⊢
      omega

theorem newest_spec {items : List TopicDiscoveryCr} {best : TopicDiscoveryCr}
    (found : newest items = some best) :
    best ∈ items ∧ ∀ d ∈ items, ¬created best < created d :=
  maxByKey_spec created earlier_asymm notEarlier_trans found

def isSuccess (object : TopicDiscoveryCr) : Bool := lifecycleOf object = .succeeded

def Discoveries.ofConnection (stored : Discoveries) (connection : String) : List TopicDiscoveryCr :=
  stored.objects.filter fun object => object.labels.lookup CONNECTION_LABEL = some connection

/-- The object is as new as any of them. -/
def Newest (objects : List TopicDiscoveryCr) (object : TopicDiscoveryCr) : Prop :=
  ∀ other ∈ objects, ¬created object < created other

/-- The answer is the newest of the objects, and none where there are none. -/
def Answers (objects : List TopicDiscoveryCr) (answer : Option DiscoveryView) : Prop :=
  (objects = [] ∧ answer = none) ∨
    ∃ object ∈ objects, Newest objects object ∧ answer = some (project object)

/-- The newest of the objects that are asked for is among the first `LATEST_SCAN` of all. -/
def Scanned (objects : List TopicDiscoveryCr) (asked : TopicDiscoveryCr → Bool) : Prop :=
  (∃ object ∈ objects, asked object = true) →
    ∃ object ∈ objects.take LATEST_SCAN, asked object = true ∧ Newest (objects.filter asked) object

/-- The service serves the connection's discoveries. -/
structure ServesConnection (routes : Routes) (actor ws connection : String)
    (stored : Discoveries) : Prop where
  authorized : routes.authorize actor ws = .ok ()
  named : isDnsSubdomain connection = true
  exists_ : routes.connection ws connection = .ok ()
  objects : routes.discoveries ws = .ok stored

theorem list_eq (stored : Discoveries) (connection : String) :
    stored.list
      { limit := LATEST_SCAN
        continueToken := none
        labelSelector := some (CONNECTION_LABEL ++ "=" ++ connection) } =
      (stored.ofConnection connection).take LATEST_SCAN := by
  have plain : '=' ∉ CONNECTION_LABEL.toList := by decide
  have sign : "=".toList = ['='] := by decide
  have parts : splitOnce '=' (CONNECTION_LABEL ++ "=" ++ connection) =
      some (CONNECTION_LABEL, connection) := by
    rw [splitOnce, String.toList_append, String.toList_append, sign, List.append_assoc,
      List.singleton_append, splitOnceChars_append plain]
    simp only [Option.map_some, String.ofList_toList]
  have chosen : (fun object => Option.all (fun selector => selects selector object)
      (some (CONNECTION_LABEL ++ "=" ++ connection))) =
      fun object => decide (object.labels.lookup CONNECTION_LABEL = some connection) := by
    funext object
    rw [Option.all_some, selects, parts]
  rw [Discoveries.list, Discoveries.ofConnection, chosen]

theorem answers_newest_iff (objects : List TopicDiscoveryCr) (asked : TopicDiscoveryCr → Bool) :
    Answers (objects.filter asked)
      ((newest ((objects.take LATEST_SCAN).filter asked)).map project) ↔ Scanned objects asked := by
  constructor
  · rintro (⟨empty, _⟩ | ⟨object, member, top, answer⟩)
    · rintro ⟨object, member, wanted⟩
      have here : object ∈ objects.filter asked := List.mem_filter.mpr ⟨member, wanted⟩
      rw [empty] at here
      cases here
    · intro _
      obtain ⟨best, found, same⟩ := Option.map_eq_some_iff.mp answer
      obtain ⟨scanned, wanted⟩ := List.mem_filter.mp (newest_spec found).1
      have age : created best = created object := congrArg DiscoveryView.createdAt same
      refine ⟨best, scanned, wanted, fun other here => ?_⟩
      rw [age]
      exact top other here
  · intro scanned
    cases found : newest ((objects.take LATEST_SCAN).filter asked) with
    | none =>
        have empty := maxByKey_eq_none.mp found
        refine .inl ⟨?_, rfl⟩
        rw [List.filter_eq_nil_iff]
        intro object member wanted
        obtain ⟨first, here, wanted', _⟩ := scanned ⟨object, member, wanted⟩
        exact List.filter_eq_nil_iff.mp empty first here wanted'
    | some best =>
        obtain ⟨member, above⟩ := newest_spec found
        obtain ⟨listed, wanted⟩ := List.mem_filter.mp member
        have stored := List.mem_of_mem_take listed
        obtain ⟨first, here, wanted', top⟩ := scanned ⟨best, stored, wanted⟩
        refine .inr ⟨best, List.mem_filter.mpr ⟨stored, wanted⟩, fun other member => ?_, rfl⟩
        exact notEarlier_trans (above first (List.mem_filter.mpr ⟨here, wanted'⟩)) (top other member)

theorem byConnectionLatest_eq {routes : Routes} {actor ws connection : String}
    {stored : Discoveries} (serves : ServesConnection routes actor ws connection stored) :
    byConnectionLatest routes actor ws connection =
      .ok { latestAttempt :=
              (newest ((stored.ofConnection connection).take LATEST_SCAN)).map project
            lastSuccessful :=
              (newest (((stored.ofConnection connection).take LATEST_SCAN).filter
                isSuccess)).map project } := by
  rw [byConnectionLatest, serves.authorized, checkName, if_pos serves.named, serves.exists_,
    serves.objects]
  simp only [list_eq]
  rfl

/-- The two slots hold the newest attempt and the newest success exactly where the first objects in
the order of their names hold both. -/
theorem byConnectionLatest_iff {routes : Routes} {actor ws connection : String}
    {stored : Discoveries} (serves : ServesConnection routes actor ws connection stored) :
    (∃ response, byConnectionLatest routes actor ws connection = .ok response ∧
      Answers (stored.ofConnection connection) response.latestAttempt ∧
      Answers ((stored.ofConnection connection).filter isSuccess) response.lastSuccessful) ↔
    Scanned (stored.ofConnection connection) (fun _ => true) ∧
      Scanned (stored.ofConnection connection) isSuccess := by
  have all := answers_newest_iff (stored.ofConnection connection) fun _ => true
  rw [List.filter_true, List.filter_true] at all
  rw [byConnectionLatest_eq serves, ← all, ← answers_newest_iff]
  constructor
  · rintro ⟨response, answered, latest, success⟩
    obtain rfl := Except.ok.inj answered
    exact ⟨latest, success⟩
  · rintro ⟨latest, success⟩
    exact ⟨_, rfl, latest, success⟩

def attempt (name phase : String) (time : Int) : TopicDiscoveryCr where
  name
  labels := [(CONNECTION_LABEL, "orders")]
  creationTimestamp := some time
  phase := some phase

def twoAttempts : Discoveries where
  objects := [attempt "td-a1" "Failed" 200, attempt "td-b2" "Succeeded" 100]
  ascending := by decide

def manyFailures : Discoveries where
  objects := (List.range 50).map (fun i => attempt ("td-" ++ toString (100 + i)) "Failed" i) ++
    [attempt "td-f7" "Succeeded" 100]
  ascending := by decide +kernel

def routesOver (stored : Discoveries) : Routes where
  authorize _ _ := .ok ()
  connection _ _ := .ok ()
  discoveries _ := .ok stored

theorem routesOver_serves (stored : Discoveries) :
    ServesConnection (routesOver stored) "ada" "team-a" "orders" stored where
  authorized := rfl
  named := by decide
  exists_ := rfl
  objects := rfl

/-- The success stays beside the failure after it. -/
theorem twoAttempts_answered :
    ∃ response, byConnectionLatest (routesOver twoAttempts) "ada" "team-a" "orders" = .ok response ∧
      Answers (twoAttempts.ofConnection "orders") response.latestAttempt ∧
      Answers ((twoAttempts.ofConnection "orders").filter isSuccess) response.lastSuccessful := by
  refine (byConnectionLatest_iff (routesOver_serves twoAttempts)).mpr ⟨fun _ => ?_, fun _ => ?_⟩
  · exact ⟨attempt "td-a1" "Failed" 200, by decide, rfl, by unfold Newest; decide⟩
  · exact ⟨attempt "td-b2" "Succeeded" 100, by decide, by decide, by unfold Newest; decide⟩

/-- The newest attempt, a success, is answered nowhere. -/
theorem manyFailures_hide_success :
    ¬∃ response, byConnectionLatest (routesOver manyFailures) "ada" "team-a" "orders" =
        .ok response ∧
      Answers (manyFailures.ofConnection "orders") response.latestAttempt ∧
      Answers ((manyFailures.ofConnection "orders").filter isSuccess) response.lastSuccessful := by
  rw [byConnectionLatest_eq (routesOver_serves manyFailures)]
  rintro ⟨response, answered, -, success⟩
  obtain rfl := Except.ok.inj answered
  obtain ⟨object, member, wanted, _⟩ := (answers_newest_iff _ _).mp success
    ⟨attempt "td-f7" "Succeeded" 100, by decide +kernel, by decide⟩
  have none_ : ((manyFailures.ofConnection "orders").take LATEST_SCAN).all (fun d => !isSuccess d) =
      true := by
    decide +kernel
  have refused := List.all_eq_true.mp none_ object member
  rw [wanted] at refused
  cases refused

end Logweir.Inventory
