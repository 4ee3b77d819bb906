import Logweir.Inventory.Entries

/-!
# Redaction

`logweir_core::check_contract`'s six rules in their order, the chokepoint `redact`, and
`logweir::check::redact_path`, which weighs long runs as object keys.  Texts are lists
of characters here; a scan carries how many characters it may still pass over.
-/

set_option autoImplicit false

namespace Logweir.Redaction

open Logweir.Text

def redacted : List Char := "[redacted]".toList

def breakOn (pat : List Char) : List Char → Option (List Char × List Char)
  | [] => if pat.isEmpty then some ([], []) else none
  | c :: s =>
      if pat.isPrefixOf (c :: s) then some ([], c :: s)
      else (breakOn pat s).map fun cut => (c :: cut.1, cut.2)

def breakOnLast (pat : List Char) : List Char → Option (List Char × List Char)
  | [] => if pat.isEmpty then some ([], []) else none
  | c :: s =>
      match breakOnLast pat s with
      | some cut => some (c :: cut.1, cut.2)
      | none => if pat.isPrefixOf (c :: s) then some ([], c :: s) else none

theorem breakOn_eq_none {pat s : List Char} {c : Char} (part : c ∈ pat) (absent : c ∉ s) :
    breakOn pat s = none := by
  have not_nil : pat.isEmpty = false := by
    cases pat with
    | nil => cases part
    | cons d pat => rfl
  induction s with
  | nil => simp [breakOn, not_nil]
  | cons d s ih =>
      have apart : ¬ pat <+: d :: s := fun starts => absent (starts.subset part)
      have later : c ∉ s := fun mem => absent (List.mem_cons_of_mem d mem)
      simp [breakOn, apart, ih later]

def pemBegin : List Char := "-----BEGIN ".toList
def pemEnd : List Char := "-----END ".toList
def pemDashes : List Char := "-----".toList

def pemRest (afterEnd : List Char) : List Char :=
  match breakOn (pemDashes ++ ['\n']) afterEnd with
  | some cut => cut.2.drop 5
  | none =>
      match breakOn pemDashes afterEnd with
      | some cut => cut.2.drop 5
      | none => []

def redactPemFrom : Nat → List Char → List Char
  | 0, s => s
  | n + 1, s =>
      match breakOn pemBegin s with
      | none => s
      | some (before, tail) =>
          match breakOn pemEnd tail with
          -- An unterminated block: none of it is kept.
          | none => before ++ redacted
          | some (_, afterEnd) => before ++ redacted ++ redactPemFrom n (pemRest afterEnd)

def redactPem (s : List Char) : List Char := redactPemFrom s.length s

def errorOpen : List Char := "<Error>".toList
def errorClose : List Char := "</Error>".toList
def codeOpen : List Char := "<Code>".toList
def codeClose : List Char := "</Code>".toList

def s3ErrorCode (body : List Char) : List Char :=
  let code := do
    let opened ← breakOn codeOpen body
    let closed ← breakOn codeClose (opened.2.drop codeOpen.length)
    if !closed.1.isEmpty && decide (closed.1.length ≤ 64) && closed.1.all Char.isAlphanum then
      some closed.1
    else none
  code.getD "Unknown".toList

def redactS3XmlFrom : Nat → List Char → List Char
  | 0, s => s
  | n + 1, s =>
      match breakOn errorOpen s with
      | none => s
      | some (head, tail) =>
          let kept := ((breakOnLast "<?xml".toList head).map fun cut => cut.1).getD head
          let (body, after) :=
            match breakOn errorClose tail with
            | some cut => (cut.1 ++ errorClose, cut.2.drop errorClose.length)
            | none => (tail, [])
          kept ++ errorOpen ++ codeOpen ++ s3ErrorCode body ++ codeClose ++ errorClose ++
            redactS3XmlFrom n after

def redactS3Xml (s : List Char) : List Char := redactS3XmlFrom s.length s

def schemeMark : List Char := "://".toList

def endsAuthority (c : Char) : Bool :=
  c == '/' || c == '?' || c == '#' || isWhitespace c || c == '"'

def hostOf (authority : List Char) : List Char :=
  (authority.reverse.takeWhile fun c => c != '@').reverse

def redactUrlUserinfoFrom : Nat → List Char → List Char
  | 0, s => s
  | n + 1, s =>
      match breakOn schemeMark s with
      | none => s
      | some (head, tail) =>
          let rest := tail.drop schemeMark.length
          let authority := rest.takeWhile fun c => !endsAuthority c
          head ++ schemeMark ++ hostOf authority ++
            redactUrlUserinfoFrom n (rest.drop authority.length)

def redactUrlUserinfo (s : List Char) : List Char := redactUrlUserinfoFrom s.length s

inductive KeywordForm where
  | any
  | quotedKeyOnly
deriving DecidableEq

def secretKeywords : List (List Char × KeywordForm) :=
  [ ("aws_secret_access_key".toList, .any)
  , ("secret_access_key".toList, .any)
  , ("secret-access-key".toList, .any)
  , ("secretaccesskey".toList, .any)
  , ("sasl.password".toList, .any)
  , ("password".toList, .any)
  , ("token".toList, .any)
  , ("secret".toList, .quotedKeyOnly) ]

def isBlank (c : Char) : Bool := c == ' ' || c == '\t'

def endsBareValue (c : Char) : Bool :=
  [' ', '\t', '\n', '\r', ',', ';', '&', '}', ']', ')', '"'].contains c

def separatorLength (form : KeywordForm) (quotedKey : Bool) (before : Option Char)
    (afterKey : List Char) : Option Nat :=
  let p := afterKey.dropWhile isBlank
  if "=>".toList.isPrefixOf p then some 2
  else if p.head? == some '=' || p.head? == some ':' then some 1
  -- `--token hunter2`: whitespace alone separates them in flag position only.
  else if afterKey.head?.any isBlank && !quotedKey && form == .any && before == some '-' then
    some 0
  else none

/-- What a keyword at the front of `s` writes, and how many characters it passes over. -/
def keyValueAt (before : Option Char) (s : List Char) (keyword : List Char × KeywordForm) :
    Option (List Char × Nat) :=
  if !keyword.1.isPrefixOf (s.map Char.toLower) then none
  else
    let p := s.drop keyword.1.length
    -- The beginning of a longer identifier is a word, not a key.
    if p.head?.any fun c => c.isAlphanum || c == '_' then none
    else
      let quotedKey := p.head? == some '"' || p.head? == some '\''
      let p := if quotedKey then p.drop 1 else p
      if keyword.2 == .quotedKeyOnly && !quotedKey then none
      else
        match separatorLength keyword.2 quotedKey before p with
        | none => none
        | some sep =>
            let p := ((p.dropWhile isBlank).drop sep).dropWhile isBlank
            let upTo := s.length - p.length
            if redacted.isPrefixOf p then
              some (s.take (upTo + redacted.length), upTo + redacted.length)
            else
              let quote := if p.head? == some '"' || p.head? == some '\'' then p.head? else none
              let opened := upTo + if quote.isSome then 1 else 0
              let value := (s.drop opened).takeWhile fun c =>
                match quote with
                | some q => c != q
                | none => !endsBareValue c
              if value.isEmpty then some (s.take upTo, upTo)
              else some (s.take opened ++ redacted, opened + value.length)

def redactKeyValuesFrom : Nat → Option Char → List Char → List Char
  | 0, _, s => s
  | _ + 1, _, [] => []
  | n + 1, before, c :: s =>
      match secretKeywords.findSome? (keyValueAt before (c :: s)) with
      | some (written, passed) =>
          written ++ redactKeyValuesFrom n ((c :: s)[passed - 1]?) ((c :: s).drop passed)
      | none => c :: redactKeyValuesFrom n (some c) s

def redactKeyValues (s : List Char) : List Char := redactKeyValuesFrom s.length none s

/-- `(AKIA|ASIA)[A-Z0-9]{16}`. -/
def looksLikeAccessKeyId (s : List Char) : Bool :=
  let id := (s.drop 4).take 16
  ("AKIA".toList.isPrefixOf s || "ASIA".toList.isPrefixOf s) && id.length == 16 &&
    id.all fun c => c.isUpper || c.isDigit

def redactAccessKeyIdsFrom : Nat → List Char → List Char
  | 0, s => s
  | _ + 1, [] => []
  | n + 1, c :: s =>
      if looksLikeAccessKeyId (c :: s) then redacted ++ redactAccessKeyIdsFrom n (s.drop 19)
      else c :: redactAccessKeyIdsFrom n s

def redactAccessKeyIds (s : List Char) : List Char := redactAccessKeyIdsFrom s.length s

def longRunMin : Nat := 40

def isRunChar (c : Char) : Bool :=
  c.isAlphanum || c == '+' || c == '/' || c == '=' || c == '_' || c == '-'

def isHexDigit (c : Char) : Bool :=
  c.isDigit || (decide ('a' ≤ c) && decide (c ≤ 'f')) || (decide ('A' ≤ c) && decide (c ≤ 'F'))

def isHexDigest (c : List Char) : Bool := (c.length == 64 || c.length == 128) && c.all isHexDigit

def isUuid (c : List Char) : Bool :=
  let groups := splitChars '-' c
  groups.map List.length == [8, 4, 4, 4, 12] && groups.all fun g => g.all isHexDigit

def digitsValue (digits : List Char) : Nat :=
  digits.foldl (fun n c => 10 * n + (c.toNat - 48)) 0

def isLeapYear (year : Nat) : Bool := year % 4 == 0 && (year % 100 != 0 || year % 400 == 0)

def daysInMonth (year month : Nat) : Nat :=
  if month = 2 then (if isLeapYear year then 29 else 28)
  else if [4, 6, 9, 11].contains month then 30 else 31

def isSlot (slot : List Char) : Bool :=
  let date := slot.take 8
  let time := slot.drop 9
  let year := digitsValue (date.take 4)
  let month := digitsValue ((date.drop 4).take 2)
  let day := digitsValue (date.drop 6)
  slot.length == 15 && slot[8]? == some '-' && date.all Char.isDigit && time.all Char.isDigit &&
    decide (1 ≤ month ∧ month ≤ 12) && decide (1 ≤ day ∧ day ≤ daysInMonth year month) &&
    decide (digitsValue (time.take 2) ≤ 23) && decide (digitsValue ((time.drop 2).take 2) ≤ 59) &&
    decide (digitsValue (time.drop 4) ≤ 60)

def isRetrySuffix (suffix : List Char) : Bool :=
  match suffix with
  | [] => true
  | ['-', 'r', k] => decide ('1' ≤ k) && decide (k ≤ '9')
  | _ => false

/-- `<schedule uid>-<slot>[-r<k>]`. -/
def isScheduledSetId (id : List Char) : Bool :=
  let uid := id.take 36
  let slot := (id.drop 37).take 15
  decide (52 ≤ id.length) && id[36]? == some '-' && isRetrySuffix (id.drop 52) && isUuid uid &&
    !uid.any Char.isUpper && isSlot slot

def isSetId (c : List Char) : Bool := isUuid c || isScheduledSetId c

def isPublicName (c : List Char) : Bool :=
  decide (c.length < longRunMin) &&
    c.all fun b => b.isLower || b.isDigit || ['.', '-', '_', '='].contains b

def freeComponentMax : Nat := 24

def crockford : List Char := "0123456789ABCDEFGHJKMNPQRSTVWXYZ".toList

def isUlid (c : List Char) : Bool :=
  c.length == 26 && (c.head?.any fun b => decide ('0' ≤ b) && decide (b ≤ '7')) &&
    c.all crockford.contains

def archiveWords : List (List Char) :=
  [ "manifest".toList, "topics".toList, "logweir".toList, "backups".toList, "readiness".toList
  , "blobs".toList ]

def numberedAfter (start c : List Char) : Bool :=
  start.isPrefixOf c && !(c.drop start.length).isEmpty && (c.drop start.length).all Char.isDigit

def isArchiveComponent (c : List Char) : Bool :=
  archiveWords.contains c || numberedAfter "partition=".toList c ||
    numberedAfter "segment-".toList c

def isKeyComponent (c : List Char) : Bool :=
  decide (c.length < longRunMin) && c.all fun b => b.isAlphanum || ['.', '-', '_', '='].contains b

def factKeyMax : Nat := 24

/-- `<factName>=<public identifier>`. -/
def isFactPair (c : List Char) : Bool :=
  match splitChars '=' c with
  | [key, value] =>
      decide (key.length ≤ factKeyMax) && key.head?.any Char.isLower && key.all Char.isAlphanum &&
        (isHexDigest value || isUuid value)
  | _ => false

def isPublicForm (c : List Char) : Bool :=
  c.isEmpty || isHexDigest c || isSetId c || isPublicName c || isFactPair c

def isAnchor (c : List Char) : Bool := isSetId c || isHexDigest c || isArchiveComponent c

def atMostOneFreeComponent (components : List (List Char)) (ulidExempt : Bool) : Bool :=
  match components.filter fun c => !isPublicForm c with
  | [] => true
  | [one] => decide (one.length ≤ freeComponentMax) || (ulidExempt && isUlid one)
  | _ :: _ :: _ => false

def isPublicIdentifier (run : List Char) : Bool :=
  let components := splitChars '/' run
  components.all isPublicForm ||
    (components.any isAnchor && (components.all fun c => isPublicForm c || isKeyComponent c) &&
      atMostOneFreeComponent components true)

def isObjectKeyShaped (value : List Char) : Bool :=
  let components := splitChars '/' value
  (components.all fun c => isPublicForm c || isKeyComponent c) &&
    atMostOneFreeComponent components (components.any isAnchor)

def writtenRun (keep : Nat → List Char → Bool) (start : Nat) (run : List Char) : List Char :=
  if longRunMin ≤ run.length ∧ ¬ keep start run then redacted else run

/-- The scanner: `run` holds the characters read of a run, `start` where it began and `pos`
where the text stands. -/
def redactRunsFrom (keep : Nat → List Char → Bool) : Nat → Nat → List Char → List Char → List Char
  | start, _, run, [] => writtenRun keep start run
  | start, pos, run, c :: s =>
      if isRunChar c then
        redactRunsFrom keep (if run.isEmpty then pos else start) (pos + 1) (run ++ [c]) s
      else writtenRun keep start run ++ c :: redactRunsFrom keep start (pos + 1) [] s

def redactRunsAt (keep : Nat → List Char → Bool) (s : List Char) : List Char :=
  redactRunsFrom keep 0 0 [] s

def redactLongRunsInKeys (s : List Char) : List Char :=
  redactRunsAt (fun _ run => isPublicIdentifier run || isObjectKeyShaped run) s

def nameAt (s : List Char) (pos : Nat) : Option (List Char) :=
  match breakOn ['`'] (s.drop pos) with
  | some (name, _) =>
      if Inventory.topicNameIsKafkaLegal (String.ofList name) then some name else none
  | none => none

def spansFrom (s : List Char) : Nat → Nat → List (Nat × Nat)
  | 0, _ => []
  | n + 1, pos =>
      match nameAt s pos with
      | none => []
      | some name =>
          let close := pos + name.length
          (pos, close) ::
            if ", `".toList.isPrefixOf (s.drop (close + 1)) then spansFrom s n (close + 4) else []

def spansOf (s word : List Char) : Nat → Nat → List (Nat × Nat)
  | 0, _ => []
  | n + 1, pos =>
      match breakOn word (s.drop pos) with
      | none => []
      | some (before, _) =>
          let start := pos + before.length
          let next := start + word.length
          let whole := start = 0 ∨ ¬ (s[start - 1]?.any fun c => c.isAlphanum || c == '_')
          (if whole then spansFrom s s.length next else []) ++ spansOf s word n next

def topicNameSpans (s : List Char) : List (Nat × Nat) :=
  ["topic `".toList, "topics `".toList].flatMap fun word => spansOf s word s.length 0

def redactLongRuns (s : List Char) : List Char :=
  let names := topicNameSpans s
  redactRunsAt
    (fun start run => names.any (fun r => decide (r.1 ≤ start ∧ start < r.2)) ||
      isPublicIdentifier run) s

def redactShapes (s : List Char) : List Char :=
  redactAccessKeyIds (redactKeyValues (redactUrlUserinfo (redactS3Xml (redactPem s))))

def applyRules (s : List Char) : List Char := redactLongRuns (redactShapes s)

def messageMaxChars : Nat := 512

def cap (s : List Char) : List Char :=
  if s.length ≤ messageMaxChars then s else s.take (messageMaxChars - 1) ++ ['…']

def redact (s : String) : String := String.ofList (cap (applyRules s.toList))

/-- `logweir::check::redact_path`. -/
def redactPath (s : String) : String :=
  String.ofList (redactLongRunsInKeys (redactShapes s.toList))

/-- Lower case, digits and what joins them in an object key. -/
def PlainKey (s : List Char) : Prop :=
  ∀ c ∈ s, (c.isLower || c.isDigit || ['/', '-', '.'].contains c) = true

theorem PlainKey.not_mem {s : List Char} (plain : PlainKey s) {c : Char}
    (other : (c.isLower || c.isDigit || ['/', '-', '.'].contains c) = false) : c ∉ s := by
  intro mem
  rw [plain c mem] at other
  exact Bool.noConfusion other

theorem PlainKey.of_sublist {s t : List Char} (plain : PlainKey s) (part : t.Sublist s) :
    PlainKey t := fun c mem => plain c (part.subset mem)

theorem PlainKey.ne_head {c d : Char} {s : List Char} (plain : PlainKey (c :: s))
    (other : (d.isLower || d.isDigit || ['/', '-', '.'].contains d) = false) : d ≠ c :=
  fun e => plain.not_mem other (e ▸ List.mem_cons_self)

theorem redactPem_plain {s : List Char} (plain : PlainKey s) : redactPem s = s := by
  have unfound : breakOn pemBegin s = none :=
    breakOn_eq_none (by decide : ' ' ∈ pemBegin) (plain.not_mem (by decide))
  unfold redactPem
  cases s.length with
  | zero => rfl
  | succ n => simp only [redactPemFrom, unfound]

theorem redactS3Xml_plain {s : List Char} (plain : PlainKey s) : redactS3Xml s = s := by
  have unfound : breakOn errorOpen s = none :=
    breakOn_eq_none (by decide : '<' ∈ errorOpen) (plain.not_mem (by decide))
  unfold redactS3Xml
  cases s.length with
  | zero => rfl
  | succ n => simp only [redactS3XmlFrom, unfound]

theorem redactUrlUserinfo_plain {s : List Char} (plain : PlainKey s) :
    redactUrlUserinfo s = s := by
  have unfound : breakOn schemeMark s = none :=
    breakOn_eq_none (by decide : ':' ∈ schemeMark) (plain.not_mem (by decide))
  unfold redactUrlUserinfo
  cases s.length with
  | zero => rfl
  | succ n => simp only [redactUrlUserinfoFrom, unfound]

theorem separatorLength_plain {s : List Char} (plain : PlainKey s) (form : KeywordForm)
    (quotedKey : Bool) (before : Option Char) :
    separatorLength form quotedKey before s = none := by
  cases s with
  | nil => simp [separatorLength]
  | cons c s =>
      have equals : '=' ≠ c := plain.ne_head (by decide)
      have colon : ':' ≠ c := plain.ne_head (by decide)
      have space : ' ' ≠ c := plain.ne_head (by decide)
      have tab : '\t' ≠ c := plain.ne_head (by decide)
      have solid : isBlank c = false := by simp [isBlank, Ne.symm space, Ne.symm tab]
      simp [separatorLength, solid, equals, Ne.symm equals, Ne.symm colon]

theorem keyValueAt_plain {s : List Char} (plain : PlainKey s) (before : Option Char)
    (keyword : List Char × KeywordForm) : keyValueAt before s keyword = none := by
  have cut : PlainKey (s.drop keyword.1.length) := plain.of_sublist (List.drop_sublist _ _)
  have quoted : ∀ q : Char, (q == '"' || q == '\'') = true →
      (s.drop keyword.1.length).head? ≠ some q := by
    intro q quote here
    have mem := List.mem_of_head? here
    have legal := cut q mem
    rcases Bool.or_eq_true _ _ ▸ quote with e | e
    · rw [eq_of_beq e] at legal
      exact absurd legal (by decide)
    · rw [eq_of_beq e] at legal
      exact absurd legal (by decide)
  have bare : ((s.drop keyword.1.length).head? == some '"' ||
      (s.drop keyword.1.length).head? == some '\'') = false := by
    rw [Bool.or_eq_false_iff]
    exact ⟨beq_eq_false_iff_ne.mpr (quoted '"' rfl), beq_eq_false_iff_ne.mpr (quoted '\'' rfl)⟩
  unfold keyValueAt
  split
  · rfl
  · simp only [bare]
    split
    · rfl
    · split
      · rfl
      · simp [separatorLength_plain cut]

theorem redactKeyValues_plain {s : List Char} (plain : PlainKey s) : redactKeyValues s = s := by
  unfold redactKeyValues
  generalize (none : Option Char) = before
  generalize s.length = n
  induction n generalizing before s with
  | zero => rfl
  | succ n ih =>
      cases s with
      | nil => rfl
      | cons c s =>
          have unfound : secretKeywords.findSome? (keyValueAt before (c :: s)) = none :=
            List.findSome?_eq_none_iff.mpr fun keyword _ => keyValueAt_plain plain before keyword
          simp only [redactKeyValuesFrom, unfound]
          rw [ih (plain.of_sublist (List.sublist_cons_self c s))]

theorem redactAccessKeyIds_plain {s : List Char} (plain : PlainKey s) :
    redactAccessKeyIds s = s := by
  unfold redactAccessKeyIds
  generalize s.length = n
  induction n generalizing s with
  | zero => rfl
  | succ n ih =>
      cases s with
      | nil => rfl
      | cons c s =>
          have upper : 'A' ≠ c := plain.ne_head (by decide)
          have unlike : looksLikeAccessKeyId (c :: s) = false := by
            simp [looksLikeAccessKeyId, upper]
          simp only [redactAccessKeyIdsFrom, unlike, Bool.false_eq_true, if_false]
          rw [ih (plain.of_sublist (List.sublist_cons_self c s))]

theorem redactShapes_plain {s : List Char} (plain : PlainKey s) : redactShapes s = s := by
  rw [redactShapes, redactPem_plain plain, redactS3Xml_plain plain,
    redactUrlUserinfo_plain plain, redactKeyValues_plain plain, redactAccessKeyIds_plain plain]

theorem redactRunsFrom_run (keep : Nat → List Char → Bool) {run : List Char}
    (chars : ∀ c ∈ run, isRunChar c = true) :
    ∀ (start pos : Nat) (held : List Char) (rest : List Char),
      redactRunsFrom keep start pos held (run ++ rest) =
        redactRunsFrom keep (if held.isEmpty && !run.isEmpty then pos else start)
          (pos + run.length) (held ++ run) rest := by
  induction run with
  | nil => simp
  | cons c run ih =>
      intro start pos held rest
      have here := chars c List.mem_cons_self
      rw [List.cons_append, redactRunsFrom, if_pos here,
        ih fun d mem => chars d (List.mem_cons_of_mem c mem)]
      simp [Nat.add_assoc, Nat.add_comm 1]

end Logweir.Redaction
