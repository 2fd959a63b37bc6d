import FailureOrchestrator.RegexFirst
import FailureOrchestrator.RegexReads
import FailureOrchestrator.SectionPath
import FailureOrchestrator.TestEvidence

namespace FailureOrchestrator

open Regex

inductive SummaryKind where
  | failed
  | error
  deriving DecidableEq

def SummaryKind.word : SummaryKind → Str
  | failed => "FAILED".toList
  | error => "ERROR".toList

/-- What a test wrote after its name: something on one line. -/
structure SummaryDetail where
  text : Str
  unbroken : Unbroken text
  nonblank : ∃ c ∈ text, isSpace c = false

/-- A line of pytest's short test summary. The node ID is free text without white space
other than the blank. -/
structure SummaryLine where
  kind : SummaryKind
  nodeid : Str
  detail : Option SummaryDetail
  nodeid_nonempty : nodeid ≠ []
  nodeid_printable : ∀ c ∈ nodeid, isSpace c = true → c = ' '

def detailText (detail : Option Str) : Str := detail.elim [] (" - ".toList ++ ·)

def summaryText (kind : SummaryKind) (nodeid : Str) (detail : Option Str) : Str :=
  kind.word ++ ' ' :: (nodeid ++ detailText detail)

def SummaryLine.text (l : SummaryLine) : Str := summaryText l.kind l.nodeid (l.detail.map (·.text))

/-- A CI time stamp such as `2024-05-01T12:34:56.789Z `. -/
structure CiStamp where
  year : Str
  month : Str
  day : Str
  clock : Str
  year_digits : year.length = 4 ∧ ∀ c ∈ year, c.isDigit = true
  month_digits : month.length = 2 ∧ ∀ c ∈ month, c.isDigit = true
  day_digits : day.length = 2 ∧ ∀ c ∈ day, c.isDigit = true
  clock_nonempty : clock ≠ []
  clock_chars : ∀ c ∈ clock, c.isDigit = true ∨ c = ':' ∨ c = '.'

def CiStamp.text (s : CiStamp) : Str := s.year ++ '-' :: (s.month ++ '-' :: (s.day ++ 'T' :: (s.clock ++ ['Z', ' '])))

def stamped (stamp : Option CiStamp) (line : Str) : Str := stamp.elim line (·.text ++ line)

/-- The characters of a result line. -/
def resultChar (c : Char) : Bool := c.isDigit || between 'a' 'z' c || "=.,: ()".toList.contains c

/-- The last line of a run: how many tests ended in which way. -/
structure ResultLine where
  items : List (Nat × Str)
  seconds : Str
  duration : Option Str
  bars : Option (Nat × Nat)
  words : ∀ i ∈ items, i.2 ≠ [] ∧ ∀ c ∈ i.2, between 'a' 'z' c = true
  seconds_nonempty : seconds ≠ []
  seconds_chars : ∀ c ∈ seconds, c.isDigit = true ∨ c = '.'
  duration_chars : ∀ d ∈ duration, ∀ c ∈ d, resultChar c = true ∧ c ≠ ')'

def itemText (i : Nat × Str) : Str := natStr i.1 ++ ' ' :: i.2

/-- `3 passed, 1 failed`. -/
def itemsText : List (Nat × Str) → Str
  | [] => []
  | [i] => itemText i
  | i :: j :: is => itemText i ++ (", ".toList ++ itemsText (j :: is))

def ResultLine.body (r : ResultLine) : Str := if r.items = [] then "no tests ran".toList else itemsText r.items

def bar (n : Nat) : Str := List.replicate (n + 1) '='

def durationText (duration : Option Str) : Str := duration.elim [] fun d => " (".toList ++ (d ++ [')'])

/-- The line without the bars around it. -/
def ResultLine.core (r : ResultLine) : Str :=
  r.body ++ (" in ".toList ++ (r.seconds ++ 's' :: durationText r.duration))

def ResultLine.text (r : ResultLine) : Str :=
  r.bars.elim r.core fun n => bar n.1 ++ ' ' :: (r.core ++ ' ' :: bar n.2)

/-- The short test summary of a run and the result line after it, as a CI log has them. -/
structure PytestSummary where
  heading : Option (Option CiStamp × Nat × Nat)
  lines : List (Option CiStamp × SummaryLine)
  resultStamp : Option CiStamp
  result : ResultLine

def headingText (n : Nat × Nat) : Str := bar n.1 ++ (" short test summary info ".toList ++ bar n.2)

def PytestSummary.text (p : PytestSummary) : Str :=
  unlines ((p.heading.toList.map fun h => stamped h.1 (headingText h.2)) ++
    p.lines.map (fun l => stamped l.1 l.2.text) ++ [stamped p.resultStamp p.result.text])

def PytestSummary.ids (p : PytestSummary) : List Str := p.lines.map (·.2.nodeid)

/-- The number that a result line gives for one outcome. -/
def ResultLine.number (r : ResultLine) (words : List String) : Nat :=
  ((r.items.filter fun i => inSet i.2 words).map (·.1)).sum

/-- The counts are those of the result line. -/
structure TestRunSummary.Shows (s : TestRunSummary) (r : ResultLine) : Prop where
  parsed : s.parsed = true
  passed : s.passed = r.number ["passed"]
  failed : s.failed = r.number ["failed"]
  errors : s.errors = r.number ["error", "errors"]
  skipped : s.skipped = r.number ["skipped"]
  xfailed : s.xfailed = r.number ["xfailed"]
  xpassed : s.xpassed = r.number ["xpassed"]
  deselected : s.deselected = r.number ["deselected"]

theorem rstrip_append_nonblank {t : Str} (h : ∃ c ∈ t, isSpace c = false) (s : Str) : rstrip (s ++ t) = s ++ rstrip t := by
  obtain ⟨c, hc, hspace⟩ := h
  obtain ⟨u, v, rfl⟩ := List.append_of_mem hc
  rw [← List.append_assoc, rstrip_append hspace, rstrip_append hspace, List.append_assoc]

theorem rstrip_idem (s : Str) : rstrip (rstrip s) = rstrip s := by
  unfold rstrip
  exact List.rdropWhile_idempotent _ _

/-- A text that begins with something is only cut at its end. -/
theorem strip_rstrip {c : Char} (h : isSpace c = false) (s : Str) : strip (rstrip (c :: s)) = rstrip (c :: s) := by
  have hcut : rstrip (c :: s) = c :: rstrip s := rstrip_append h (s := []) s
  unfold strip
  rw [hcut, lstrip_cons h, ← hcut, rstrip_idem]

theorem nonblank_rstrip {d : Str} (h : ∃ c ∈ d, isSpace c = false) : ∃ c ∈ rstrip d, isSpace c = false := by
  obtain ⟨c, hc, hspace⟩ := h
  obtain ⟨u, v, rfl⟩ := List.append_of_mem hc
  exact ⟨c, by rw [rstrip_append hspace]; simp, hspace⟩

theorem rstrip_subset {d : Str} {c : Char} (h : c ∈ rstrip d) : c ∈ d := (List.rdropWhile_prefix _ _).subset h

theorem first_nonblank {d : Str} (h : ∃ c ∈ d, isSpace c = false) :
    ∃ ws c e, d = ws ++ c :: e ∧ (∀ x ∈ ws, isSpace x = true) ∧ isSpace c = false := by
  obtain ⟨c, e, hsplit⟩ : ∃ c e, d.dropWhile isSpace = c :: e := by
    obtain ⟨c, hc, hspace⟩ := h
    refine List.exists_cons_of_ne_nil fun hnil => ?_
    rw [List.dropWhile_eq_nil_iff.mp hnil c hc] at hspace
    cases hspace
  refine ⟨d.takeWhile isSpace, c, e, ?_, fun x hx => List.mem_takeWhile_imp hx, ?_⟩
  · rw [← hsplit, List.takeWhile_append_dropWhile]
  · have hhead := List.head?_dropWhile_not isSpace d
    rw [hsplit] at hhead
    simpa using hhead

/-! What the patterns read on the lines of a summary. -/

variable [UnicodeData]

theorem takes_spaces1 {t b rest : Str} {g : List (Nat × Str)} (hne : t ≠ []) (ht : ∀ c ∈ t, isSpace c = true)
    (hrest : ∀ c ∈ rest.head?, isSpace c = false) :
    spaces1.Takes ⟨b, t ++ rest, g⟩ ⟨t.reverse ++ b, rest, g⟩ := takes_some1 hne ht hrest

/-- `FAILED` or `ERROR`. -/
theorem takes_kind (kind : SummaryKind) {b rest : Str} {g : List (Nat × Str)} :
    (lits ["FAILED", "ERROR"]).Takes ⟨b, kind.word ++ rest, g⟩ ⟨kind.word.reverse ++ b, rest, g⟩ := by
  cases kind with
  | failed => exact (takes_lit "FAILED").left
  | error =>
    refine Takes.right (lit_fails (c := 'F') rfl ?_) (takes_lit "ERROR")
    intro h
    cases h

/-- The detail with the blanks before it. -/
theorem takes_detail {b d : Str} {g : List (Nat × Str)} (hnonblank : ∃ c ∈ d, isSpace c = false) (hd : '\n' ∉ d) :
    ∃ m, (cat [opt (cat [spaces1, chr '-', spaces1, .grp 2 (many dot)]), .eos]).Takes ⟨b, " - ".toList ++ d, g⟩ m := by
  obtain ⟨ws, c, e, rfl, hws, hc⟩ := first_nonblank hnonblank
  have hblanks : ∀ x ∈ ' ' :: ws, isSpace x = true := List.forall_mem_cons.mpr ⟨rfl, hws⟩
  have hdot : ∀ x ∈ c :: e, (x != '\n') = true := by
    intro x hx
    exact bne_iff_ne.mpr fun heq => hd (heq ▸ List.mem_append_right ws hx)
  have hblank : spaces1.Takes ⟨b, [' '] ++ ('-' :: ((' ' :: ws) ++ (c :: e))), g⟩
      ⟨' ' :: b, '-' :: ((' ' :: ws) ++ (c :: e)), g⟩ := takes_spaces1 (by simp) (by simp [isSpace]) (by simp [isSpace])
  have hdash : (chr '-').Takes ⟨' ' :: b, '-' :: ((' ' :: ws) ++ (c :: e)), g⟩
      ⟨'-' :: ' ' :: b, (' ' :: ws) ++ (c :: e), g⟩ := takes_chr '-'
  have hblanks' : spaces1.Takes ⟨'-' :: ' ' :: b, (' ' :: ws) ++ (c :: e), g⟩
      ⟨(' ' :: ws).reverse ++ '-' :: ' ' :: b, c :: e, g⟩ := takes_spaces1 (by simp) hblanks (by simpa using hc)
  have hgroup : (Regex.grp 2 (many dot)).Takes ⟨(' ' :: ws).reverse ++ '-' :: ' ' :: b, (c :: e) ++ [], g⟩
      ⟨(c :: e).reverse ++ ((' ' :: ws).reverse ++ '-' :: ' ' :: b), [], (2, c :: e) :: g⟩ :=
    (takes_many hdot (by simp)).grp 2
  rw [List.append_nil] at hgroup
  have hdetail := hblank.cons (hdash.cons (hblanks'.cons (hgroup.cons takes_nil)))
  exact ⟨_, hdetail.left.cons (takes_eos.cons takes_nil)⟩

theorem matchStart_summary (kind : SummaryKind) {id : Str} (hne : id ≠ []) (hid : ∀ c ∈ id, isSpace c = false)
    {detail : Option Str} (hdetail : ∀ d ∈ detail, (∃ c ∈ d, isSpace c = false) ∧ '\n' ∉ d) :
    ∃ m, matchStart summaryLineRe (summaryText kind id detail) = some m ∧ m.group 1 = some id := by
  have hsolid : ∀ c ∈ id, (!isSpace c) = true := by
    intro c hc
    rw [hid c hc]
    rfl
  have hkind : (lits ["FAILED", "ERROR"]).Takes ⟨[], summaryText kind id detail, []⟩
      ⟨kind.word.reverse ++ [], [' '] ++ (id ++ detailText detail), []⟩ := takes_kind kind
  have hblank : spaces1.Takes ⟨kind.word.reverse ++ [], [' '] ++ (id ++ detailText detail), []⟩
      ⟨' ' :: (kind.word.reverse ++ []), id ++ detailText detail, []⟩ := by
    refine takes_spaces1 (by simp) (by simp [isSpace]) ?_
    cases id with
    | nil => exact absurd rfl hne
    | cons c id => simpa using hid c List.mem_cons_self
  have hgroup : (Regex.grp 1 (some1 notSpace)).Takes ⟨' ' :: (kind.word.reverse ++ []), id ++ detailText detail, []⟩
      ⟨id.reverse ++ ' ' :: (kind.word.reverse ++ []), detailText detail, [(1, id)]⟩ := by
    refine Takes.grp 1 (takes_some1 hne hsolid ?_)
    cases detail with
    | none => simp [detailText]
    | some d => simp [detailText, isSpace]
  obtain ⟨m, hm⟩ : ∃ m, (cat [opt (cat [spaces1, chr '-', spaces1, .grp 2 (many dot)]), .eos]).Takes
      ⟨id.reverse ++ ' ' :: (kind.word.reverse ++ []), detailText detail, [(1, id)]⟩ m := by
    cases detail with
    | none => exact ⟨_, Takes.cons (Takes.right rfl rfl) (takes_eos.cons takes_nil)⟩
    | some d => exact takes_detail (hdetail d rfl).1 (hdetail d rfl).2
  refine ⟨m, (takes_bos.cons (hkind.cons (hblank.cons (hgroup.cons hm)))).matchStart, ?_⟩
  have hkeeps : (cat [opt (cat [spaces1, chr '-', spaces1, .grp 2 (many dot)]), .eos]).Keeps 1 := by
    simp [cat, opt, spaces1, space, some1, many, chr, dot, Keeps]
  rw [hkeeps.group (List.mem_of_head? hm)]
  rfl

end FailureOrchestrator
