import Std.Data.ExtTreeMap
import Mathlib.Data.List.Perm.Basic

/-!
# What a restore created, and the rule its cleanup deletes by

`logweir_core::target_creation`.  A recorded topic is deleted only when its
current ID is the ID recorded at creation.
-/

set_option autoImplicit false

namespace Logweir.Cleanup

open Std (ExtTreeMap)

def LINEAGE_HEADERS_KEPT : String := "kept"

def CLONE_TARGET_REPLACED : String := "CloneTargetReplaced"

def CLONE_TARGET_IDENTITY_UNKNOWN : String := "CloneTargetIdentityUnknown"

structure CreatedTopic where
  name : String
  partitions : Nat
  topicId : Option String
  topicIdReason : Option String
deriving DecidableEq, Repr

structure TargetCreation where
  topics : List CreatedTopic
  lineageHeaders : String
  teardownAfterSeconds : Option Nat
deriving DecidableEq, Repr

inductive CurrentId where
  | id (text : String)
  | notFound
  | unread (why : String)
deriving DecidableEq, Repr

structure CleanupPlan where
  delete : List String := []
  skipped : List (String × String) := []
  unreadable : List (String × String) := []
  alreadyAbsent : List String := []
deriving DecidableEq, Repr

/-- One turn of the cleanup's loop: the topic's name goes on one of the four lists. -/
def CleanupPlan.push (current : ExtTreeMap String CurrentId) (plan : CleanupPlan)
    (topic : CreatedTopic) : CleanupPlan :=
  match topic.topicId with
  | none =>
    { plan with
      skipped := plan.skipped ++ [(topic.name,
        CLONE_TARGET_IDENTITY_UNKNOWN ++ ": no topic ID was recorded at creation (" ++
          topic.topicIdReason.getD "no reason recorded" ++
          "), so nothing proves the topic is the one this restore created")] }
  | some recordedId =>
    match current[topic.name]? with
    | some (.id now) =>
      if now = recordedId then { plan with delete := plan.delete ++ [topic.name] }
      else
        { plan with
          skipped := plan.skipped ++ [(topic.name,
            CLONE_TARGET_REPLACED ++ ": the topic's ID is " ++ now ++
              ", and this restore created it as " ++ recordedId ++
              "; it was deleted and created again since, and is left in place")] }
    | some .notFound => { plan with alreadyAbsent := plan.alreadyAbsent ++ [topic.name] }
    | some (.unread why) =>
      { plan with
        unreadable := plan.unreadable ++ [(topic.name,
          CLONE_TARGET_IDENTITY_UNKNOWN ++ ": the topic's ID could not be read (" ++ why ++
            "), so it is not deleted")] }
    | none =>
      { plan with
        unreadable := plan.unreadable ++ [(topic.name,
          CLONE_TARGET_IDENTITY_UNKNOWN ++
            ": the topic's ID could not be read (no answer for it), so it is not deleted")] }

def cleanupPlan (recorded : TargetCreation) (current : ExtTreeMap String CurrentId) : CleanupPlan :=
  recorded.topics.foldl (CleanupPlan.push current) {}

/-- The topic of this name is the one the run created. -/
def CreatedTopic.StillOurs (current : ExtTreeMap String CurrentId) (topic : CreatedTopic) : Prop :=
  ∃ recordedId, topic.topicId = some recordedId ∧ current[topic.name]? = some (.id recordedId)

/-- A recorded ID that cannot be compared now. -/
def CreatedTopic.Unreadable (current : ExtTreeMap String CurrentId) (topic : CreatedTopic) : Prop :=
  (∃ recordedId, topic.topicId = some recordedId) ∧
    (current[topic.name]? = none ∨ ∃ why, current[topic.name]? = some (.unread why))

def CleanupPlan.named (plan : CleanupPlan) : List String :=
  plan.delete ++ plan.skipped.map Prod.fst ++ plan.unreadable.map Prod.fst ++ plan.alreadyAbsent

variable {current : ExtTreeMap String CurrentId} {plan : CleanupPlan} {topic : CreatedTopic}

theorem CleanupPlan.push_cases (current : ExtTreeMap String CurrentId) (plan : CleanupPlan)
    (topic : CreatedTopic) :
    (topic.StillOurs current ∧
      plan.push current topic = { plan with delete := plan.delete ++ [topic.name] }) ∨
    ((¬ topic.StillOurs current ∧ ¬ topic.Unreadable current) ∧ ((∃ why, plan.push current topic =
        { plan with skipped := plan.skipped ++ [(topic.name, why)] }) ∨
      plan.push current topic =
        { plan with alreadyAbsent := plan.alreadyAbsent ++ [topic.name] })) ∨
    (topic.Unreadable current ∧ ¬ topic.StillOurs current ∧ ∃ why, plan.push current topic =
      { plan with unreadable := plan.unreadable ++ [(topic.name, why)] }) := by
  unfold CleanupPlan.push CreatedTopic.StillOurs CreatedTopic.Unreadable
  cases recorded : topic.topicId with
  | none =>
      right; left
      exact ⟨by simp, .inl ⟨_, rfl⟩⟩
  | some recordedId =>
      cases answer : current[topic.name]? with
      | none =>
          right; right
          exact ⟨by simp, by simp, _, rfl⟩
      | some now =>
          cases now with
          | id now =>
              by_cases same : now = recordedId
              · left
                exact ⟨by simp [same], by simp [same]⟩
              · right; left
                refine ⟨⟨?_, by simp⟩, .inl ⟨_, by simp only [same, if_false]; rfl⟩⟩
                rintro ⟨other, held, answered⟩
                cases held
                cases answered
                exact same rfl
          | notFound =>
              right; left
              exact ⟨by simp, .inr rfl⟩
          | unread why =>
              right; right
              exact ⟨by simp, by simp, _, rfl⟩

theorem CleanupPlan.named_push (plan : CleanupPlan) (topic : CreatedTopic) :
    (plan.push current topic).named.Perm (topic.name :: plan.named) := by
  unfold CleanupPlan.named
  rw [List.perm_iff_count]
  intro name
  rcases plan.push_cases current topic with
    ⟨-, eq⟩ | ⟨-, ⟨why, eq⟩ | eq⟩ | ⟨-, -, why, eq⟩ <;>
  · simp only [eq, List.map_append, List.map_cons, List.map_nil, List.count_append,
      List.count_cons, List.count_nil]
    omega

theorem CleanupPlan.mem_delete_push (plan : CleanupPlan) (topic : CreatedTopic) (name : String) :
    name ∈ (plan.push current topic).delete ↔
      name ∈ plan.delete ∨ (topic.name = name ∧ topic.StillOurs current) := by
  rcases plan.push_cases current topic with
    ⟨ours, eq⟩ | ⟨⟨other, -⟩, ⟨why, eq⟩ | eq⟩ | ⟨-, other, why, eq⟩
  · simp [eq, ours, eq_comm]
  · simp [eq, other]
  · simp [eq, other]
  · simp [eq, other]

theorem CleanupPlan.unreadable_push (plan : CleanupPlan) (topic : CreatedTopic) :
    (plan.push current topic).unreadable = [] ↔
      plan.unreadable = [] ∧ ¬ topic.Unreadable current := by
  rcases plan.push_cases current topic with
    ⟨ours, eq⟩ | ⟨⟨-, other⟩, ⟨why, eq⟩ | eq⟩ | ⟨lost, -, why, eq⟩
  · have readable : ¬ topic.Unreadable current := by
      obtain ⟨recordedId, -, answer⟩ := ours
      rintro ⟨-, none | ⟨why, unread⟩⟩
      · rw [answer] at none
        cases none
      · rw [answer] at unread
        cases unread
    simp [eq, readable]
  · simp [eq, other]
  · simp [eq, other]
  · simp [eq, lost]

theorem named_foldl_push (current : ExtTreeMap String CurrentId) (topics : List CreatedTopic)
    (plan : CleanupPlan) :
    (topics.foldl (CleanupPlan.push current) plan).named.Perm
      (topics.map CreatedTopic.name ++ plan.named) := by
  induction topics generalizing plan with
  | nil => exact .refl _
  | cons topic topics ih =>
      apply (ih (plan.push current topic)).trans
      apply ((plan.named_push topic).append_left _).trans
      exact List.perm_middle

theorem mem_delete_foldl_push (topics : List CreatedTopic) (plan : CleanupPlan) (name : String) :
    name ∈ (topics.foldl (CleanupPlan.push current) plan).delete ↔
      name ∈ plan.delete ∨ ∃ topic ∈ topics, topic.name = name ∧ topic.StillOurs current := by
  induction topics generalizing plan with
  | nil => simp
  | cons topic topics ih =>
      rw [List.foldl_cons, ih, plan.mem_delete_push]
      simp only [List.mem_cons, exists_eq_or_imp, or_assoc]

theorem unreadable_foldl_push (topics : List CreatedTopic) (plan : CleanupPlan) :
    (topics.foldl (CleanupPlan.push current) plan).unreadable = [] ↔
      plan.unreadable = [] ∧ ∀ topic ∈ topics, ¬ topic.Unreadable current := by
  induction topics generalizing plan with
  | nil => simp
  | cons topic topics ih =>
      rw [List.foldl_cons, ih, plan.unreadable_push]
      simp only [List.forall_mem_cons, and_assoc]

theorem named_cleanupPlan (recorded : TargetCreation) (current : ExtTreeMap String CurrentId) :
    (cleanupPlan recorded current).named.Perm (recorded.topics.map CreatedTopic.name) := by
  have all := named_foldl_push current recorded.topics {}
  rwa [show CleanupPlan.named {} = [] from rfl, List.append_nil] at all

theorem mem_delete_cleanupPlan (recorded : TargetCreation) (current : ExtTreeMap String CurrentId)
    (name : String) :
    name ∈ (cleanupPlan recorded current).delete ↔
      ∃ topic ∈ recorded.topics, topic.name = name ∧ topic.StillOurs current := by
  unfold cleanupPlan
  rw [mem_delete_foldl_push]
  simp

theorem unreadable_cleanupPlan (recorded : TargetCreation)
    (current : ExtTreeMap String CurrentId) :
    (cleanupPlan recorded current).unreadable = [] ↔
      ∀ topic ∈ recorded.topics, ¬ topic.Unreadable current := by
  unfold cleanupPlan
  rw [unreadable_foldl_push]
  simp

end Logweir.Cleanup
