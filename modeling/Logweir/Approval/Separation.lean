import Logweir.Library.Text
import Mathlib.Tactic.SplitIfs

/-!
# Two people

The identity rule of `logweir_core::approval_policy`: which principals a console
approval can compare, and when a requester and an approver are two people.
Every arm can only refuse.
-/

set_option autoImplicit false

namespace Logweir.Approval

open Logweir.Text

def MAX_SHOWN_CHARS : Nat := 96
def LOCAL_ADMIN_ISSUER : String := "urn:logweir:local-admin"
def KUBERNETES_SYSTEM_SUBJECT_PREFIX : String := "system:"
def MAX_COMPARABLE_SUBJECT_LEN : Nat := 255
def MAX_COMPARABLE_ISSUER_LEN : Nat := 255

def isVisible (c : Char) : Bool := 0x21 ≤ c.toNat && c.toNat ≤ 0x7E

def shownChar (c : Char) : List Char :=
  if isVisible c && c != '"' && c != '\\' then [c]
  else "\\u\x7b".toList ++ Nat.toDigits 16 c.toNat ++ "\x7d".toList

def shown (text : String) : String :=
  let rest := text.length - MAX_SHOWN_CHARS
  String.ofList ('"' :: (text.toList.take MAX_SHOWN_CHARS).flatMap shownChar ++ ['"']) ++
    if rest > 0 then " (and " ++ toString rest ++ " more characters)" else ""

def principalWords (issuer subject : String) : String := shown issuer ++ "#" ++ shown subject

def isVisibleAscii (text : String) : Bool := !text.isEmpty && text.toList.all isVisible

inductive Party where
  | requester
  | approver
deriving DecidableEq, Repr

def Party.asStr : Party → String
  | .requester => "requester"
  | .approver => "approver"

inductive SeparationFault where
  | notComparable (party : Party)
  | localAdmin (party : Party)
  | systemIdentity (party : Party)
  | twoIssuers
  | samePerson
deriving DecidableEq, Repr

def SeparationFault.clause : SeparationFault → String
  | .notComparable _ =>
    "is not in a form that can be compared: a console approval compares an issuer " ++
    "and a subject made of visible ASCII characters only (no space, no control " ++
    "character, nothing outside ASCII; the issuer without `#`; each at most 255 " ++
    "characters, as OpenID Connect bounds `sub`), and an identity it cannot compare " ++
    "cannot be shown to be a second person"
  | .localAdmin _ =>
    "is the in-cluster administrator console's one identity, which cannot be one of " ++
    "two people; a console approval needs two people the same identity provider " ++
    "vouches for"
  | .systemIdentity _ =>
    "is a Kubernetes system identity (a service account, a node or a system user), " ++
    "not a person; a console approval is between two people"
  | .twoIssuers =>
    "come from two issuers; whether a subject of one is a subject of the other " ++
    "cannot be known, so a principal of another issuer is never a second person"
  | .samePerson =>
    "is the requester (the issuer and the subject are compared without case); a " ++
    "two-person approval needs a second person, and no role changes that"

def foldIssuer (issuer : String) : String :=
  toAsciiLowercase (String.ofList (issuer.toList.reverse.dropWhile (· = '/')).reverse)

def foldSubject (subject : String) : String := toAsciiLowercase subject

def isSystemIdentity (subject : String) : Bool :=
  KUBERNETES_SYSTEM_SUBJECT_PREFIX.toList.isPrefixOf (toAsciiLowercase subject).toList

def principalFault (party : Party) (issuer subject : String) : Option SeparationFault :=
  if !isVisibleAscii issuer || !isVisibleAscii subject || issuer.toList.contains '#' ||
      issuer.utf8ByteSize > MAX_COMPARABLE_ISSUER_LEN ||
      subject.utf8ByteSize > MAX_COMPARABLE_SUBJECT_LEN then
    some (.notComparable party)
  else if foldIssuer issuer = LOCAL_ADMIN_ISSUER then some (.localAdmin party)
  else if isSystemIdentity subject then some (.systemIdentity party)
  else none

def separationFault (requesterIssuer requesterSubject approverIssuer approverSubject : String) :
    Option SeparationFault :=
  match principalFault .requester requesterIssuer requesterSubject with
  | some fault => some fault
  | none =>
    match principalFault .approver approverIssuer approverSubject with
    | some fault => some fault
    | none =>
      if foldIssuer requesterIssuer ≠ foldIssuer approverIssuer then some .twoIssuers
      else if foldSubject requesterSubject = foldSubject approverSubject then some .samePerson
      else none

/-- A person a console approval can name. -/
structure Person (issuer subject : String) : Prop where
  notLocalAdmin : foldIssuer issuer ≠ LOCAL_ADMIN_ISSUER
  notSystem : isSystemIdentity subject = false

theorem person_of_no_fault {party : Party} {issuer subject : String}
    (none : principalFault party issuer subject = none) : Person issuer subject := by
  unfold principalFault at none
  split_ifs at none with form admin system
  exact ⟨admin, by simpa using system⟩

theorem two_people_of_no_fault {requesterIssuer requesterSubject approverIssuer approverSubject : String}
    (none : separationFault requesterIssuer requesterSubject approverIssuer approverSubject = none) :
    Person requesterIssuer requesterSubject ∧ Person approverIssuer approverSubject ∧
      foldIssuer approverIssuer = foldIssuer requesterIssuer ∧
      foldSubject approverSubject ≠ foldSubject requesterSubject := by
  unfold separationFault at none
  split at none
  · cases none
  · next requester =>
      split at none
      · cases none
      · next approver =>
          split_ifs at none with issuers subjects
          refine ⟨person_of_no_fault requester, person_of_no_fault approver, ?_, ?_⟩
          · exact (Decidable.not_not.mp issuers).symm
          · exact fun same => subjects same.symm

end Logweir.Approval
