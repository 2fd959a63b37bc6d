import FailureOrchestrator.HunkHeader
import FailureOrchestrator.RunModel

namespace FailureOrchestrator

theorem pad3_isDigit {n : Nat} {c : Char} (h : c ∈ pad3 n) : c.isDigit = true := by
  rcases List.mem_append.mp h with h | h
  · rw [(List.mem_replicate.mp h).2]
    rfl
  · exact natStr_isDigit h

/-- The padded numeral is read back. -/
theorem ofDigitChars_pad3 (n : Nat) : Nat.ofDigitChars 10 (pad3 n) 0 = n := by
  unfold pad3
  rw [Nat.ofDigitChars_append, Nat.ofDigitChars_replicate_zero, Nat.mul_zero]
  exact Nat.ofDigitChars_toDigits (by omega) (by omega)

theorem pad3_injective {m n : Nat} (h : pad3 m = pad3 n) : m = n := by
  rw [← ofDigitChars_pad3 m, h, ofDigitChars_pad3]

theorem numbered_injective {stem suffix : String} {m n : Nat} (h : numbered stem m suffix = numbered stem n suffix) :
    m = n := by
  unfold numbered at h
  exact pad3_injective (List.append_cancel_left (List.append_cancel_right h))

theorem notMem_numbered {c : Char} {stem suffix : String} {n : Nat} (hstem : c ∉ stem.toList) (hdash : c ≠ '-')
    (hdigit : c.isDigit = false) (hsuffix : c ∉ suffix.toList) : c ∉ numbered stem n suffix := by
  unfold numbered
  intro h
  rcases List.mem_append.mp h with h | h
  · rcases List.mem_append.mp h with h | h
    · rcases List.mem_append.mp h with h | h
      · exact hstem h
      · exact hdash (List.mem_singleton.mp h)
    · rw [pad3_isDigit h] at hdigit
      cases hdigit
  · exact hsuffix h

theorem replaceChar_of_notMem {a b : Char} {s : Str} (h : a ∉ s) : replaceChar a b s = s := by
  unfold replaceChar
  refine (List.map_congr_left fun c hc => ?_).trans (List.map_id s)
  rw [if_neg]
  · rfl
  · rintro rfl
    exact h hc

/-- A text is split at its first separator in one way. -/
theorem splitFirst_injective {c : Char} {x y z w : Str} (hx : c ∉ x) (hy : c ∉ y) (h : x ++ c :: z = y ++ c :: w) :
    x = y ∧ z = w := by
  induction x generalizing y with
  | nil =>
    cases y with
    | nil => exact ⟨rfl, (List.cons.inj h).2⟩
    | cons b y =>
      rw [(List.cons.inj h).1] at hy
      exact absurd List.mem_cons_self hy
  | cons a x ih =>
    cases y with
    | nil =>
      rw [(List.cons.inj h).1] at hx
      exact absurd List.mem_cons_self hx
    | cons b y =>
      obtain ⟨rfl, hrest⟩ := List.cons.inj h
      obtain ⟨rfl, hzw⟩ := ih (fun hmem => hx (List.mem_cons_of_mem _ hmem)) (fun hmem => hy (List.mem_cons_of_mem _ hmem)) hrest
      exact ⟨rfl, hzw⟩

/-- The evidence files of a run and of its reviewers, with the attempt and the tool that name them. -/
inductive EvidenceName where
  | input
  | classification
  | plan (attempt : Nat)
  | tool (attempt : Nat) (tool : String)
  | proposal (attempt : Nat)
  | patch (attempt : Nat)
  | sandbox (attempt : Nat)
  | evaluation (attempt : Nat)
  | attempt (attempt : Nat)
  | retry (attempt : Nat)
  | policy
  | escalation
  | decision
  deriving DecidableEq, Repr

/-- A tool name that is part of a file name. -/
def PlainTool (tool : String) : Prop := '/' ∉ tool.toList ∧ '\\' ∉ tool.toList

instance (tool : String) : Decidable (PlainTool tool) := inferInstanceAs (Decidable (_ ∧ _))

namespace EvidenceName

def kind : EvidenceName → String
  | .input => "input"
  | .classification => "classification"
  | .plan _ => "plan"
  | .tool _ _ => "tool"
  | .proposal _ => "proposal"
  | .patch _ => "patch"
  | .sandbox _ => "sandbox"
  | .evaluation _ => "evaluation"
  | .attempt _ => "attempt"
  | .retry _ => "retry"
  | .policy => "policy"
  | .escalation => "escalation"
  | .decision => "reviewer"

def file : EvidenceName → Str
  | .input => "failure-event.json".toList
  | .classification => "classification.json".toList
  | .plan n => numbered "plan" n ".json"
  | .tool n name => numbered "tool" n "-" ++ name.toList ++ ".json".toList
  | .proposal n => numbered "proposal" n ".json"
  | .patch n => numbered "proposal" n ".patch"
  | .sandbox n => numbered "sandbox" n ".json"
  | .evaluation n => numbered "evaluation" n ".json"
  | .attempt n => numbered "attempt" n ".json"
  | .retry n => numbered "retry-decision" n ".json"
  | .policy => "policy-decision.json".toList
  | .escalation => "summary.json".toList
  | .decision => "decision.json".toList

/-- The reference of the file. -/
def ref (a : EvidenceName) : Str := evidencePath a.kind a.file

/-- The directory of the file. -/
def dir (a : EvidenceName) : String := (kindDirs.lookup a.kind).getD a.kind

/-- The directories, and the place of a file's directory among them. -/
def dirs : List String :=
  ["input", "classification", "plans", "tools", "proposals", "sandbox", "evaluations", "attempts", "retry", "policy",
    "escalation", "reviewer"]

def slot : EvidenceName → Nat
  | .input => 0
  | .classification => 1
  | .plan _ => 2
  | .tool _ _ => 3
  | .proposal _ | .patch _ => 4
  | .sandbox _ => 5
  | .evaluation _ => 6
  | .attempt _ => 7
  | .retry _ => 8
  | .policy => 9
  | .escalation => 10
  | .decision => 11

theorem dirs_slot (a : EvidenceName) : dirs[a.slot]? = some a.dir := by
  cases a <;> (dsimp only [slot, dir, kind]; decide)

theorem slot_of_dir {a b : EvidenceName} (h : a.dir = b.dir) : a.slot = b.slot := by
  have ha := a.dirs_slot
  rw [h, ← b.dirs_slot] at ha
  refine (List.getElem?_inj ?_ (by decide)).mp ha
  cases a <;> (dsimp only [slot]; decide)

def Plain : EvidenceName → Prop
  | .tool _ name => PlainTool name
  | _ => True

theorem backslash_notMem_dir (a : EvidenceName) : '\\' ∉ a.dir.toList := by
  cases a <;> (dsimp only [dir, kind]; decide)

theorem slash_notMem_dir (a : EvidenceName) : '/' ∉ a.dir.toList := by
  cases a <;> (dsimp only [dir, kind]; decide)

theorem Plain.backslash_notMem_file {a : EvidenceName} (h : a.Plain) : '\\' ∉ a.file := by
  have hnumbered : ∀ {stem suffix : String} {n : Nat}, '\\' ∉ stem.toList → '\\' ∉ suffix.toList →
      '\\' ∉ numbered stem n suffix := fun hstem hsuffix => notMem_numbered hstem (by decide) (by decide) hsuffix
  cases a with
  | input | classification | policy | escalation | decision =>
    dsimp only [file]
    decide
  | plan n | proposal n | patch n | sandbox n | evaluation n | attempt n | retry n => exact hnumbered (by decide) (by decide)
  | tool n name =>
    intro hmem
    rcases List.mem_append.mp hmem with hmem | hmem
    · rcases List.mem_append.mp hmem with hmem | hmem
      · exact hnumbered (by decide) (by decide) hmem
      · exact h.2 hmem
    · revert hmem
      decide

theorem Plain.ref_eq {a : EvidenceName} (h : a.Plain) : a.ref = a.dir.toList ++ '/' :: a.file := by
  unfold ref evidencePath
  rw [replaceChar_of_notMem]
  · show a.dir.toList ++ ['/'] ++ a.file = _
    rw [List.append_assoc]
    rfl
  · intro hmem
    rcases List.mem_append.mp hmem with hmem | hmem
    · rcases List.mem_append.mp hmem with hmem | hmem
      · exact a.backslash_notMem_dir hmem
      · revert hmem
        decide
    · exact h.backslash_notMem_file hmem

theorem tool_file_injective {m n : Nat} {t u : String} (h : (tool m t).file = (tool n u).file) : m = n ∧ t = u := by
  have hdash : ∀ k, '-' ∉ pad3 k := by
    intro k hmem
    exact absurd (pad3_isDigit hmem) (by decide)
  have hnumbered : ∀ k (s : String), (tool k s).file = "tool-".toList ++ (pad3 k ++ '-' :: (s.toList ++ ".json".toList)) := by
    intro k s
    unfold file numbered
    simp
  rw [hnumbered, hnumbered] at h
  have hrest := List.append_cancel_left h
  obtain ⟨hpad, htool⟩ := splitFirst_injective (hdash m) (hdash n) hrest
  exact ⟨pad3_injective hpad, String.toList_inj.mp (List.append_cancel_right htool)⟩

theorem proposal_ne_patch {m n : Nat} : numbered "proposal" m ".json" ≠ numbered "proposal" n ".patch" := by
  intro h
  have hlast := congrArg List.getLast? h
  unfold numbered at hlast
  simp only [List.getLast?_append] at hlast
  exact absurd (show some 'n' = some 'h' from hlast) (by decide)

/-- Two files of one name are one file. -/
theorem ref_injective {a b : EvidenceName} (ha : a.Plain) (hb : b.Plain) (h : a.ref = b.ref) : a = b := by
  rw [ha.ref_eq, hb.ref_eq] at h
  obtain ⟨hdirs, hfile⟩ := splitFirst_injective a.slash_notMem_dir b.slash_notMem_dir h
  have hslot := slot_of_dir (String.toList_inj.mp hdirs)
  cases a <;> cases b <;> first
    | rfl
    | exact absurd hslot (by dsimp only [slot]; decide)
    | skip
  case plan.plan | proposal.proposal | patch.patch | sandbox.sandbox | evaluation.evaluation | attempt.attempt |
      retry.retry => exact congrArg _ (numbered_injective hfile)
  case proposal.patch => exact absurd hfile proposal_ne_patch
  case patch.proposal => exact absurd hfile.symm proposal_ne_patch
  case tool.tool m t n u =>
    obtain ⟨rfl, rfl⟩ := tool_file_injective hfile
    rfl

end EvidenceName

end FailureOrchestrator
