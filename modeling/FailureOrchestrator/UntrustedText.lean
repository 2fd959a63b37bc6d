import FailureOrchestrator.Fingerprint
import FailureOrchestrator.RegexEnds
import FailureOrchestrator.RegexSub
import FailureOrchestrator.Sanitization

namespace FailureOrchestrator

open Regex

/-- Operating system commands, control sequences and two-character escapes of a terminal. -/
def ansiRe : Regex :=
  anyOf [cat [chr '\x1b', chr ']', many (noneOf "\x07\x1b"), anyOf [chr '\x07', cat [chr '\x1b', chr '\\']]],
    cat [chr '\x1b', chr '[', many (.cls (between '0' '?')), many (.cls (between ' ' '/')), .cls (between '@' '~')],
    cat [chr '\x1b', .cls fun c => between '@' 'Z' c || between '\\' '_' c]]

/-- A control character other than a tab or a newline. -/
def isControl (c : Char) : Bool :=
  let n := c.toNat
  n ≤ 0x08 || (0x0b ≤ n && n ≤ 0x1f) || (0x7f ≤ n && n ≤ 0x9f)

def controlRe : Regex := .cls isControl

/-- `::command::` and `##[command]` at the beginning of a line. -/
def workflowCommandRe : Regex :=
  cat [.bol, .grp 1 spaces, .grp 2 (anyOf [cat [lit "::", .cls Char.isAlpha], lit "##["])]

def workflowCommandMark : Str := "[neutralized] ".toList

section

variable [UnicodeData]

def neutralize (text : Str) : Str :=
  if text.isEmpty then text
  else
    let text := replaceChar '\r' '\n' (replaceCrlf text)
    let text := sub ansiRe (fun _ _ => []) text
    let text := sub controlRe (fun _ _ => []) text
    sub workflowCommandRe (fun _ m => (m.group 1).getD [] ++ workflowCommandMark ++ (m.group 2).getD []) text

def cleanUntrusted (text : Str) : Str := (sanitizeText (neutralize text)).1

end

/-! ## Lines that a runner would interpret -/

/-- The text begins with `::` and a letter, or with `##[`. -/
def beginsCommand : Str → Bool
  | ':' :: ':' :: c :: _ => c.isAlpha
  | '#' :: '#' :: '[' :: _ => true
  | _ => false

def opensCommand (line : Str) : Bool := beginsCommand (lstrip line)

/-- No line is a workflow command. -/
def NoCommand (text : Str) : Prop := ∀ line ∈ splitChar '\n' text, opensCommand line = false

instance (text : Str) : Decidable (NoCommand text) := inferInstanceAs (Decidable (∀ _ ∈ _, _))

def NoControl (text : Str) : Prop := ∀ c ∈ text, isControl c = false

instance (text : Str) : Decidable (NoControl text) := inferInstanceAs (Decidable (∀ _ ∈ _, _))

/-- What of a line has been read: nothing but whitespace, part of a command, or anything else. -/
inductive LineState where
  | opening
  | colon
  | colons
  | hash
  | hashes
  | inside
  | command
  deriving DecidableEq, Repr

namespace LineState

def step (q : LineState) (c : Char) : LineState :=
  if q = .command then .command
  else if c = '\n' then .opening
  else
    match q with
    | .opening => if isSpace c then .opening else if c = ':' then .colon else if c = '#' then .hash else .inside
    | .colon => if c = ':' then .colons else .inside
    | .colons => if c.isAlpha then .command else .inside
    | .hash => if c = '#' then .hashes else .inside
    | .hashes => if c = '[' then .command else .inside
    | .inside => .inside
    | .command => .command

def scan (q : LineState) (s : Str) : LineState := s.foldl step q

@[simp] theorem scan_nil (q : LineState) : q.scan [] = q := rfl

@[simp] theorem scan_cons (q : LineState) (c : Char) (s : Str) : q.scan (c :: s) = (q.step c).scan s := rfl

theorem scan_append (q : LineState) (s t : Str) : q.scan (s ++ t) = (q.scan s).scan t := List.foldl_append

@[simp] theorem step_command (c : Char) : step .command c = .command := rfl

@[simp] theorem scan_command (s : Str) : scan .command s = .command := by
  induction s with
  | nil => rfl
  | cons c s ih => rw [scan_cons, step_command, ih]

theorem step_newline {q : LineState} (h : q ≠ .command) : q.step '\n' = .opening := by
  unfold step
  rw [if_neg h, if_pos rfl]

theorem ne_command_of_scan {q : LineState} {s : Str} (h : q.scan s ≠ .command) : q ≠ .command := by
  rintro rfl
  exact h (scan_command s)

/-- Within a line nothing follows that is a command. -/
theorem scan_inside {s : Str} (h : '\n' ∉ s) : scan .inside s = .inside := by
  induction s with
  | nil => rfl
  | cons c s ih =>
    rw [List.mem_cons, not_or] at h
    have hstep : step .inside c = .inside := by
      unfold step
      rw [if_neg (by decide), if_neg (Ne.symm h.1)]
    rw [scan_cons, hstep, ih h.2]

theorem scan_spaces {s : Str} (h : ∀ c ∈ s, isSpace c = true) : scan .opening s = .opening := by
  induction s with
  | nil => rfl
  | cons c s ih =>
    rw [List.forall_mem_cons] at h
    have hstep : step .opening c = .opening := by
      simp [step, h.1]
    rw [scan_cons, hstep, ih h.2]

/-- The state that is at least as safe. -/
def Within (q q' : LineState) : Prop := q = .inside ∨ q = q'

theorem Within.step {q q' : LineState} (h : q.Within q') (c : Char) (hc : q'.step c ≠ .command) :
    (q.step c).Within (q'.step c) := by
  rcases h with rfl | rfl
  · by_cases hn : c = '\n'
    · have hq' : q' ≠ .command := by
        rintro rfl
        exact hc rfl
      rw [hn, step_newline hq', step_newline (by decide)]
      exact .inr rfl
    · refine .inl ?_
      unfold LineState.step
      rw [if_neg (by decide), if_neg hn]
  · exact .inr rfl

theorem Within.scan {q q' : LineState} (h : q.Within q') {s : Str} (hs : q'.scan s ≠ .command) :
    (q.scan s).Within (q'.scan s) := by
  induction s generalizing q q' with
  | nil => exact h
  | cons c s ih => exact ih (h.step c (ne_command_of_scan hs)) hs

theorem Within.ne_command {q q' : LineState} (h : q.Within q') (hq' : q' ≠ .command) : q ≠ .command := by
  rcases h with rfl | rfl
  · decide
  · exact hq'

end LineState

open LineState

/-- A text that begins with a character inside a line is no command. -/
theorem scan_cons_inside {q : LineState} {c : Char} {s : Str} (hc : q.step c = .inside) (h : '\n' ∉ s) :
    q.scan (c :: s) ≠ .command := by
  rw [scan_cons, hc, scan_inside h]
  decide

theorem scan_body_iff {body : Str} (hn : '\n' ∉ body) (hspace : ∀ c ∈ body.head?, isSpace c = false) :
    scan .opening body = .command ↔ beginsCommand body = true := by
  cases body with
  | nil => decide
  | cons c body =>
    have hc := hspace c rfl
    rw [List.mem_cons, not_or] at hn
    by_cases hcolon : c = ':'
    · subst hcolon
      rw [scan_cons, show LineState.step .opening ':' = .colon from rfl]
      cases body with
      | nil => decide
      | cons d body =>
        rw [List.mem_cons, not_or] at hn
        by_cases hd : d = ':'
        · subst hd
          rw [scan_cons, show LineState.step .colon ':' = .colons from rfl]
          cases body with
          | nil => decide
          | cons e body =>
            rw [List.mem_cons, not_or] at hn
            by_cases he : e.isAlpha = true
            · have hstep : LineState.step .colons e = .command := by
                simp [LineState.step, Ne.symm hn.2.2.1, he]
              rw [scan_cons, hstep, scan_command]
              simp [beginsCommand, he]
            · have hstep : LineState.step .colons e = .inside := by
                simp [LineState.step, Ne.symm hn.2.2.1, he]
              refine iff_of_false (scan_cons_inside hstep hn.2.2.2) ?_
              simp [beginsCommand, he]
        · have hstep : LineState.step .colon d = .inside := by
            simp [LineState.step, Ne.symm hn.2.1, hd]
          refine iff_of_false (scan_cons_inside hstep hn.2.2) ?_
          simp [beginsCommand, hd]
    · by_cases hhash : c = '#'
      · subst hhash
        rw [scan_cons, show LineState.step .opening '#' = .hash from rfl]
        cases body with
        | nil => decide
        | cons d body =>
          rw [List.mem_cons, not_or] at hn
          by_cases hd : d = '#'
          · subst hd
            rw [scan_cons, show LineState.step .hash '#' = .hashes from rfl]
            cases body with
            | nil => decide
            | cons e body =>
              rw [List.mem_cons, not_or] at hn
              by_cases he : e = '['
              · subst he
                rw [scan_cons, show LineState.step .hashes '[' = .command from rfl, scan_command]
                simp [beginsCommand]
              · have hstep : LineState.step .hashes e = .inside := by
                  simp [LineState.step, Ne.symm hn.2.2.1, he]
                refine iff_of_false (scan_cons_inside hstep hn.2.2.2) ?_
                simp [beginsCommand, he]
          · have hstep : LineState.step .hash d = .inside := by
              simp [LineState.step, Ne.symm hn.2.1, hd]
            refine iff_of_false (scan_cons_inside hstep hn.2.2) ?_
            simp [beginsCommand, hd]
      · have hstep : LineState.step .opening c = .inside := by
          simp [LineState.step, Ne.symm hn.1, hc, hcolon, hhash]
        refine iff_of_false (scan_cons_inside hstep hn.2) ?_
        simp [beginsCommand, hcolon, hhash]

/-- One line is a command when its reading says so. -/
theorem scan_line_iff {line : Str} (h : '\n' ∉ line) : scan .opening line = .command ↔ opensCommand line = true := by
  have hsplit : line = line.takeWhile isSpace ++ lstrip line := List.takeWhile_append_dropWhile.symm
  have hopen : scan .opening (line.takeWhile isSpace) = .opening :=
    scan_spaces fun c hc => List.mem_takeWhile_imp hc
  have hbody : '\n' ∉ lstrip line := fun hc => h ((List.dropWhile_suffix _).subset hc)
  have hhead : ∀ c ∈ (lstrip line).head?, isSpace c = false := by
    intro c hc
    have hnot := List.head?_dropWhile_not isSpace line
    rw [show (line.dropWhile isSpace).head? = some c from hc] at hnot
    exact hnot
  conv_lhs => rw [hsplit, scan_append, hopen]
  exact scan_body_iff hbody hhead

/-- A text is read line by line, the first line from the state before it. -/
theorem scan_lines_iff {q : LineState} (hq : q ≠ .command) (s : Str) :
    ∃ line rest, splitChar '\n' s = line :: rest ∧
      (q.scan s = .command ↔ q.scan line = .command ∨ ∃ l ∈ rest, scan .opening l = .command) := by
  induction s generalizing q with
  | nil => exact ⟨[], [], rfl, by simp⟩
  | cons c s ih =>
    by_cases hc : c = '\n'
    · obtain ⟨line, rest, hsplit, hiff⟩ := ih (q := .opening) (by decide)
      refine ⟨[], line :: rest, by rw [splitChar_cons, if_pos hc, hsplit], ?_⟩
      rw [scan_cons, hc, step_newline hq, hiff]
      simp [hq]
    · by_cases hstep : q.step c = .command
      · obtain ⟨line, rest, hsplit, -⟩ := ih hq
        refine ⟨c :: line, rest, by rw [splitChar_cons, if_neg hc, hsplit]; rfl, ?_⟩
        simp [hstep]
      · obtain ⟨line, rest, hsplit, hiff⟩ := ih hstep
        exact ⟨c :: line, rest, by rw [splitChar_cons, if_neg hc, hsplit]; rfl, hiff⟩

theorem noCommand_iff (s : Str) : NoCommand s ↔ scan .opening s ≠ .command := by
  obtain ⟨line, rest, hsplit, hiff⟩ := scan_lines_iff (q := .opening) (by decide) s
  have hline : ∀ l ∈ line :: rest, opensCommand l = false ↔ scan .opening l ≠ .command := by
    intro l hl
    rw [← hsplit] at hl
    rw [ne_eq, scan_line_iff (not_mem_of_mem_splitChar hl), Bool.not_eq_true]
  have hall : (∀ l ∈ line :: rest, opensCommand l = false) ↔ ∀ l ∈ line :: rest, scan .opening l ≠ .command :=
    forall₂_congr hline
  unfold NoCommand
  rw [hsplit, hall, List.forall_mem_cons]
  simp only [ne_eq, hiff, not_or, not_exists, not_and]

end FailureOrchestrator
