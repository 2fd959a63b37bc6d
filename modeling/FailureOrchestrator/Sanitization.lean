import FailureOrchestrator.Regex
import FailureOrchestrator.RegexSub

namespace FailureOrchestrator

open Regex

def redacted : Str := "[REDACTED_SECRET]".toList

/-- The kinds of secret that the sanitizer looks for, in the order it applies them. -/
inductive SecretKind where
  | bearer
  | githubToken
  | awsKey
  | assignment
  | connection
  | privateKey
  deriving DecidableEq, Repr

def SecretKind.all : List SecretKind :=
  [.bearer, .githubToken, .awsKey, .assignment, .connection, .privateKey]

def privateKeyLine (mark : String) : Regex :=
  cat [lit "-----", lit mark, opt (lits [" RSA", " OPENSSH", " EC"]), lit " PRIVATE KEY-----"]

def SecretKind.pattern : SecretKind → Regex
  | .bearer => cat [ilit "bearer", spaces1,
      atLeast 8 (.cls fun c => isFoldedLetter c || c.isDigit || "._~+/=-".toList.contains c)]
  | .githubToken => cat [.wordB, ilit "gh", ioneOf "pousr", chr '_',
      atLeast 20 (.cls fun c => isFoldedLetter c || c.isDigit), .wordB]
  | .awsKey => cat [.wordB, lit "AKIA",
      exactly 16 (.cls fun c => c.isDigit || between 'A' 'Z' c), .wordB]
  | .assignment => cat [.grp 1 (anyOf [cat [ilit "api", opt (oneOf "_-"), ilit "key"],
        ilit "password", ilit "secret", ilit "token", ilit "authorization"]),
      .grp 2 (cat [spaces, oneOf ":=", spaces]),
      some1 (.cls fun c => !(isSpace c || ",;'\"\n".toList.contains c))]
  | .connection => cat [ilits ["postgres", "mysql", "mongodb", "redis"], lit "://", some1 notSpace]
  | .privateKey => cat [privateKeyLine "BEGIN", manyLazy (.cls fun _ => true), privateKeyLine "END"]

/-- What a match is replaced by; an assignment keeps its left-hand side. -/
def SecretKind.replacement (kind : SecretKind) (m : Cursor) : Str :=
  match kind with
  | .assignment => (m.group 1).getD [] ++ (m.group 2).getD [] ++ redacted
  | .bearer => "Bearer ".toList ++ redacted
  | _ => redacted

def SecretKind.highConfidence : SecretKind → Bool
  | .githubToken | .awsKey | .privateKey => true
  | _ => false

section

variable [UnicodeData]

def containsHighConfidenceSecret (text : Str) : Bool :=
  !text.isEmpty && SecretKind.all.any fun kind => kind.highConfidence && found kind.pattern text

/-- One pass of the redaction: the text and the number of redactions so far. -/
def redactKind (state : Str × Nat) (kind : SecretKind) : Str × Nat :=
  (sub kind.pattern (fun _ m => kind.replacement m) state.1,
    state.2 + countMatches kind.pattern state.1)

def sanitizeText (text : Str) : Str × Nat :=
  if text.isEmpty then (text, 0) else SecretKind.all.foldl redactKind (text, 0)

end

/-- A character without which the pattern does not match. -/
def SecretKind.neededChar : SecretKind → Char → Bool
  | .bearer => isSpace
  | .githubToken => (· == '_')
  | .awsKey => (· == 'K')
  | .assignment => fun c => ":=".toList.contains c
  | .connection => (· == ':')
  | .privateKey => (· == '-')

theorem SecretKind.needs (kind : SecretKind) : kind.pattern.Needs kind.neededChar := by
  cases kind with
  | bearer => exact .inr (.inl (.inl fun _ hc => hc))
  | githubToken => exact .inr (.inr (.inr (.inl fun _ hc => hc)))
  | awsKey => exact .inr (.inl (.inr (.inl fun _ hc => hc)))
  | assignment => exact .inr (.inl (.inr (.inl fun _ hc => hc)))
  | connection => exact .inr (.inl (.inl fun _ hc => hc))
  | privateKey => exact .inl (.inl (.inl fun _ hc => hc))

/-- The kinds of which nothing is kept. -/
def SecretKind.whole : SecretKind → Bool
  | .bearer | .assignment => false
  | _ => true

theorem SecretKind.replacement_whole {kind : SecretKind} (h : kind.whole = true) (m : Cursor) :
    kind.replacement m = redacted := by
  cases kind with
  | bearer | assignment => cases h
  | githubToken | awsKey | connection | privateKey => rfl

section

variable [UnicodeData]

theorem SecretKind.consumes (kind : SecretKind) : kind.pattern.Consumes := kind.needs.consumes

/-- The text after the pass for one kind. -/
def SecretKind.redact (kind : SecretKind) (text : Str) : Str := sub kind.pattern (fun _ m => kind.replacement m) text

/-- The matches that a pass replaces, each with the position where it begins. -/
def SecretKind.matchesIn (kind : SecretKind) (text : Str) : List (Cursor × Cursor) :=
  findFrom kind.pattern text.length (start text)

theorem SecretKind.redact_substitutes (kind : SecretKind) (text : Str) :
    Substitutes kind.pattern (fun _ m => kind.replacement m) [] text (kind.redact text) (kind.matchesIn text) :=
  sub_substitutes kind.consumes _ text

/-- The passes with the texts they read. -/
def redactionRun : List SecretKind → Str → List (SecretKind × Str)
  | [], _ => []
  | kind :: kinds, text => (kind, text) :: redactionRun kinds (kind.redact text)

def redactAll (kinds : List SecretKind) (text : Str) : Str := kinds.foldl (fun text kind => kind.redact text) text

theorem foldl_redactKind (kinds : List SecretKind) (state : Str × Nat) :
    (kinds.foldl redactKind state).1 = redactAll kinds state.1 := by
  induction kinds generalizing state with
  | nil => rfl
  | cons kind kinds ih => exact ih (redactKind state kind)

theorem sanitizeText_eq_redactAll (text : Str) : (sanitizeText text).1 = redactAll SecretKind.all text := by
  unfold sanitizeText
  split
  · next h =>
    rw [List.isEmpty_iff.mp h]
    rfl
  · exact foldl_redactKind _ _

/-- A text in which every pattern misses a character that it needs stays as it is. -/
theorem sanitizeText_eq_self {text : Str}
    (h : ∀ kind : SecretKind, ∃ p, kind.pattern.Needs p ∧ ∀ c ∈ text, p c = false) : (sanitizeText text).1 = text := by
  rw [sanitizeText_eq_redactAll]
  unfold redactAll
  induction SecretKind.all with
  | nil => rfl
  | cons kind kinds ih =>
    obtain ⟨p, hneeds, hp⟩ := h kind
    have hkeep : kind.redact text = text := sub_eq_self hneeds hp _
    rw [List.foldl_cons, hkeep, ih]

end

end FailureOrchestrator
