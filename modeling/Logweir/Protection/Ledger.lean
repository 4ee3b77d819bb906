import Logweir.Library.Ordered
import Logweir.Library.SortedMaps
import Logweir.Library.Text
import Logweir.Protection.Evaluate
import Mathlib.Data.Prod.Lex
import Mathlib.Order.WithBot

/-!
# The alert ledger

`weirkeeper::protection`: the alerts of a policy, one for each kind that was ever open and one for
each recovery, and how a pass and a list of finished recoveries move them.
-/

set_option autoImplicit false

namespace Logweir.Protection

open Logweir.SortedMaps
open Logweir.Leaders

def MAX_ALERTS : Nat := 16

def MAX_RECOVERY_ALERTS : Nat := 8

inductive AlertKind where
  | backupFailure
  | staleness
  | archiveUnavailable
  | rehearsalFailure
  | recoveryCompleted
deriving DecidableEq

def PolicyAlertKind.ALL : List PolicyAlertKind :=
  [.backupFailure, .staleness, .archiveUnavailable, .rehearsalFailure]

def PolicyAlertKind.asStr : PolicyAlertKind → String
  | .backupFailure => "BackupFailure"
  | .staleness => "Staleness"
  | .archiveUnavailable => "ArchiveUnavailable"
  | .rehearsalFailure => "RehearsalFailure"

def PolicyAlertKind.widen : PolicyAlertKind → AlertKind
  | .backupFailure => .backupFailure
  | .staleness => .staleness
  | .archiveUnavailable => .archiveUnavailable
  | .rehearsalFailure => .rehearsalFailure

def DEDUP_PREFIX : String := "logweir-protection-"

def UNKNOWN_IDENT : String := "unknown"

def ident (raw : String) : String := if (Text.trim raw).isEmpty then UNKNOWN_IDENT else raw

def dedupKey (policyUid : String) (kind : PolicyAlertKind) : String :=
  DEDUP_PREFIX ++ ident policyUid ++ "-" ++ kind.asStr

def recoveryCompletedKey (restoreUid : String) : String :=
  DEDUP_PREFIX ++ ident restoreUid ++ "-RecoveryCompleted"

structure AlertEntry where
  key : String
  kind : AlertKind
  state : String
  openedAt : Option Time
  resolvedAt : Option Time
  transition : Option Int
deriving DecidableEq

/-- `AlertState::as_str`. -/
def OPEN : String := "Open"
def RESOLVED : String := "Resolved"

def wrapped (n : Int) : Int := n.bmod (2 ^ 64)

def AlertEntry.counted (e : AlertEntry) : Option Int := some (wrapped (e.transition.getD 0 + 1))

def resolvesAlerts : Health → Bool
  | .healthy => true
  | .atRisk => true
  | .stale => false
  | .unprotected => false
  | .unknown => false

def nextEntry (key : String) (kind : PolicyAlertKind) (mayResolve : Bool) (now : Time) :
    Option AlertEntry → Bool → Option AlertEntry
  | none, false => none
  | none, true =>
      some { key, kind := kind.widen, state := OPEN, openedAt := some now, resolvedAt := none
             transition := some 1 }
  | some entry, true =>
      if entry.state ≠ OPEN then
        some { entry with
          state := OPEN, openedAt := some now, resolvedAt := none, transition := entry.counted }
      else some entry
  | some entry, false =>
      if entry.state = OPEN ∧ mayResolve then
        some { entry with
          state := RESOLVED, resolvedAt := some now, transition := entry.counted }
      else some entry

def moveKind (desiredOpen : List PolicyAlertKind) (mayResolve : Bool) (policyUid : String)
    (now : Time) (byKey : SortedMap String AlertEntry) (kind : PolicyAlertKind) :
    SortedMap String AlertEntry :=
  let key := dedupKey policyUid kind
  match nextEntry key kind mayResolve now (byKey.get? key) (desiredOpen.contains kind) with
  | some entry => byKey.insert key entry
  | none => byKey.erase key

def byKeyOf (existing : List AlertEntry) : SortedMap String AlertEntry :=
  existing.foldl (fun m e => m.insert e.key e) .empty

def reconcileAlerts (existing : List AlertEntry) (desiredOpen : List PolicyAlertKind)
    (health : Health) (policyUid : String) (now : Time) : List AlertEntry :=
  let byKey := PolicyAlertKind.ALL.foldl
    (moveKind desiredOpen (resolvesAlerts health) policyUid now) (byKeyOf existing)
  (byKey.values.mergeSort fun a b => decide (a.key ≤ b.key)).take MAX_ALERTS

structure RecoveryCompletion where
  restoreName : String
  restoreUid : String
  phase : String
  outcome : Option String
  at_ : Option Time
deriving DecidableEq

def RecoveryCompletion.entry (c : RecoveryCompletion) (now : Time) : AlertEntry where
  key := recoveryCompletedKey c.restoreUid
  kind := .recoveryCompleted
  state := RESOLVED
  openedAt := c.at_.or (some now)
  resolvedAt := c.at_.or (some now)
  transition := some 1

def pushRecovery (now : Time) (out : List AlertEntry) (c : RecoveryCompletion) :
    List AlertEntry :=
  if out.any fun e => e.key == recoveryCompletedKey c.restoreUid then out else out ++ [c.entry now]

def pushRecoveries (now : Time) (existing : List AlertEntry)
    (completions : List RecoveryCompletion) : List AlertEntry :=
  completions.foldl (pushRecovery now) existing

abbrev Standing := WithBot Int ×ₗ String

def AlertEntry.standing (e : AlertEntry) : Standing := toLex (e.openedAt, e.key)

def isRecovery (e : AlertEntry) : Bool := decide (e.kind = .recoveryCompleted)

def standings (entries : List AlertEntry) : List Standing :=
  (entries.filter isRecovery).map AlertEntry.standing

def pruneRecoveries (entries : List AlertEntry) : List AlertEntry :=
  if (standings entries).length ≤ MAX_RECOVERY_ALERTS then entries
  else
    let rank := leaders MAX_RECOVERY_ALERTS (standings entries)
    entries.filter fun e => !isRecovery e || rank.contains e.standing

def foldRecoveries (existing : List AlertEntry) (completions : List RecoveryCompletion)
    (now : Time) : List AlertEntry :=
  pruneRecoveries (pushRecoveries now existing completions)

theorem asStr_inj {kind kind' : PolicyAlertKind} (same : kind.asStr = kind'.asStr) :
    kind = kind' := by
  cases kind <;> cases kind' <;> first | rfl | exact absurd same (by decide)

theorem dedupKey_inj {uid : String} {kind kind' : PolicyAlertKind}
    (same : dedupKey uid kind = dedupKey uid kind') : kind = kind' := by
  have chars := congrArg String.toList same
  simp only [dedupKey, String.toList_append, List.append_cancel_left_eq] at chars
  exact asStr_inj (String.toList_injective chars)

theorem recoveryCompletedKey_ne (restoreUid policyUid : String) (kind : PolicyAlertKind) :
    recoveryCompletedKey restoreUid ≠ dedupKey policyUid kind := by
  intro same
  have last := congrArg (fun s : String => s.toList.getLast?) same
  simp only [recoveryCompletedKey, dedupKey, String.toList_append] at last
  rw [List.getLast?_append_of_ne_nil _ (by decide)] at last
  cases kind <;> rw [List.getLast?_append_of_ne_nil _ (by decide)] at last <;>
    exact absurd last (by decide)

end Logweir.Protection
