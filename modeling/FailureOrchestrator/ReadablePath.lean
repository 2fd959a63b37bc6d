import FailureOrchestrator.DiffRead

namespace FailureOrchestrator

/-- A name that begins and ends with something other than a blank. -/
def Trimmed (name : Str) : Prop := name.head? ≠ some ' ' ∧ name.getLast? ≠ some ' '

theorem lstrip_eq_self_iff {name : Str} (h : Plain name) : lstrip name = name ↔ name.head? ≠ some ' ' := by
  cases name with
  | nil => simp [lstrip]
  | cons a t =>
    have ha := isSpace_of_not_needsQuote (h a (by simp))
    unfold lstrip
    rw [List.dropWhile_cons, ha]
    constructor
    · intro heq hhead
      have hblank : a = ' ' := by simpa using hhead
      rw [if_pos (by simp [hblank])] at heq
      have := congrArg List.length heq
      have := (List.dropWhile_suffix isSpace (l := t)).length_le
      simp only [List.length_cons] at *
      omega
    · intro hhead
      rw [if_neg (by simpa using hhead)]

theorem rstrip_eq_self_iff {name : Str} (h : Plain name) : rstrip name = name ↔ name.getLast? ≠ some ' ' := by
  induction name using List.reverseRecOn with
  | nil => simp [rstrip]
  | append_singleton t a _ =>
    have ha := isSpace_of_not_needsQuote (h a (by simp))
    rw [List.getLast?_concat]
    constructor
    · intro heq hlast
      have hblank : a = ' ' := by simpa using hlast
      rw [rstrip_concat_space (by rw [ha]; simp [hblank])] at heq
      have := congrArg List.length heq
      have := (List.rdropWhile_prefix isSpace t).length_le
      simp only [List.length_append, List.length_cons, List.length_nil] at *
      unfold rstrip at *
      omega
    · intro hlast
      exact rstrip_concat (by rw [ha]; simpa using hlast) t

theorem lstrip_suffix (s : Str) : lstrip s <:+ s := List.dropWhile_suffix _

theorem strip_eq_self_iff {name : Str} (h : Plain name) : strip name = name ↔ Trimmed name := by
  constructor
  · intro heq
    have hl : lstrip name = name := by
      refine (lstrip_suffix name).eq_of_length_le ?_
      calc name.length = (strip name).length := by rw [heq]
        _ ≤ (lstrip name).length := (List.rdropWhile_prefix isSpace _).length_le
    have hr : rstrip name = name := by
      unfold strip at heq
      rwa [hl] at heq
    exact ⟨(lstrip_eq_self_iff h).mp hl, (rstrip_eq_self_iff h).mp hr⟩
  · rintro ⟨hhead, hlast⟩
    rw [strip, (lstrip_eq_self_iff h).mpr hhead, (rstrip_eq_self_iff h).mpr hlast]

/-- The rename headers give a name back exactly when it needs no quotes and no blank
surrounds it. -/
theorem strip_quoteName_iff (name : Str) :
    strip (quoteName [] name) = name ↔ Plain name ∧ Trimmed name := by
  by_cases h : Plain name
  · rw [quoteName_plain h, List.nil_append, strip_eq_self_iff h]
    simp [h]
  · refine ⟨fun heq => absurd (congrArg List.length heq) ?_, fun hp => absurd hp.1 h⟩
    have hlen := length_lt_quoteName h []
    have same : strip (quoteName [] name) = quoteName [] name := by
      rw [quoteName_quoted h, strip_quoted]
    rw [same]
    omega

theorem lastWord_no_space (s : Str) : ' ' ∉ (splitChar ' ' s).getLastD [] := by
  have hne := List.splitOn_ne_nil ' ' s
  refine not_mem_of_mem_splitChar (s := s) ?_
  unfold splitChar
  rw [List.getLastD_eq_getLast?, List.getLast?_eq_some_getLast hne, Option.getD_some]
  exact List.getLast_mem hne

theorem lastWord_of_no_space {s : Str} (h : ' ' ∉ s) : (splitChar ' ' s).getLastD [] = s := by
  simp [splitChar, List.splitOn_eq_singleton h]

theorem strip_of_no_space {name : Str} (h : Plain name) (hs : ' ' ∉ name) : strip name = name := by
  refine (strip_eq_self_iff h).mpr ⟨fun hhead => hs ?_, fun hlast => hs ?_⟩
  · exact List.mem_of_mem_head? hhead
  · exact List.mem_of_mem_getLast? hlast

namespace FileChange

/-- The `diff --git` line alone gives the path exactly when the path holds no blank. -/
theorem firstPath_iff (c : FileChange) :
    c.firstPath = c.kind.new.name ↔ Plain c.kind.new.name ∧ ' ' ∉ c.kind.new.name := by
  generalize hn : c.kind.new.name = name
  unfold firstPath
  rw [hn]
  constructor
  · intro heq
    have hblank : ' ' ∉ name := by
      rw [← heq]
      exact fun hm => lastWord_no_space _ (mem_of_mem_stripPrefix hm)
    refine ⟨?_, hblank⟩
    by_contra hp
    have hq := quoteName_quoted hp "b/".toList
    have hquoted : ' ' ∉ quoteName "b/".toList name := by
      rw [hq]
      simpa using space_not_mem_quoted hblank
    have htab : '\t' ∉ "b/".toList ++ name.flatMap quoteChar := by
      simpa using tab_not_mem_quoted name
    have hlen := length_lt_quoteName hp "b/".toList
    rw [lastWord_of_no_space hquoted, hq, stripPrefix_quoted htab, ← hq] at heq
    rw [heq] at hlen
    omega
  · rintro ⟨hp, hblank⟩
    have hside : Plain "b/".toList := by decide
    have hb : Plain ("b/".toList ++ name) := by
      intro x hx
      rcases List.mem_append.mp hx with hx | hx
      · exact hside x hx
      · exact hp x hx
    have hbs : ' ' ∉ "b/".toList ++ name := by simpa using hblank
    rw [quoteName_plain hp, lastWord_of_no_space hbs]
    unfold stripPrefix
    rw [strip_of_no_space hb hbs, beforeFirst_of_not_mem (tab_not_mem_of_plain hb)]
    rfl

/-- The paths that the reader gives back as they are. -/
def PathReadable (c : FileChange) : Prop :=
  Plain c.kind.new.name ∧
    match c.hunks, c.kind with
    | _ :: _, _ => c.kind.new.name.getLast? ≠ some ' '
    | [], .rename _ n => Trimmed n.name
    | [], _ => ' ' ∉ c.kind.new.name

/-- The rename sources that the reader gives back as they are. -/
def SourceReadable (c : FileChange) : Prop :=
  ∀ o ∈ c.renameSource, Plain o.name ∧ Trimmed o.name

theorem labelPath_iff {name side : Str} (hs : IsSide side) :
    labelPath (quoteName side name) = name ↔ Plain name ∧ name.getLast? ≠ some ' ' := by
  by_cases h : Plain name
  · rw [labelPath_plain hs h, rstrip_eq_self_iff h]
    simp [h]
  · have hlen := length_lt_quoteName h side
    rw [labelPath_quoted hs h]
    refine ⟨fun heq => ?_, fun hp => absurd hp.1 h⟩
    rw [heq] at hlen
    omega

theorem namingLabel_eq (c : FileChange) : ∃ side, IsSide side ∧
    c.namingLabel = quoteName side c.kind.new.name := by
  unfold namingLabel
  cases hk : c.kind with
  | delete p => exact ⟨"a/".toList, Or.inl rfl, by simp [oldLabel, hk, ChangeKind.old, ChangeKind.new]⟩
  | modify p | add p => exact ⟨"b/".toList, Or.inr rfl, by simp [newLabel, hk, ChangeKind.new]⟩
  | rename o n | copy o n => exact ⟨"b/".toList, Or.inr rfl, by simp [newLabel, hk, ChangeKind.new]⟩

theorem movedPath_iff (c : FileChange) : c.movedPath = c.kind.new.name ↔
    Plain c.kind.new.name ∧ match c.kind with
      | .rename _ n => Trimmed n.name
      | _ => ' ' ∉ c.kind.new.name := by
  have first := c.firstPath_iff
  unfold movedPath
  cases hk : c.kind with
  | rename o n => exact strip_quoteName_iff n.name
  | modify p | add p | delete p => rw [hk] at first; exact first
  | copy o n => rw [hk] at first; exact first

/-- A label that reads as empty stands for a name of blanks, which no header gives back. -/
theorem movedPath_ne_of_blank {c : FileChange} (hp : Plain c.kind.new.name)
    (hr : rstrip c.kind.new.name = []) : c.movedPath ≠ c.kind.new.name := by
  have hall : ∀ x ∈ c.kind.new.name, x = ' ' := by
    intro x hx
    have hspace := List.rdropWhile_eq_nil_iff.mp hr x hx
    rw [isSpace_of_not_needsQuote (hp x hx)] at hspace
    simpa using hspace
  obtain ⟨a, t, hn⟩ := List.exists_cons_of_ne_nil c.kind.new.nonempty
  have ha : a = ' ' := hall a (by simp [hn])
  rw [Ne, movedPath_iff]
  rintro ⟨_, hm⟩
  cases hk : c.kind with
  | rename o n =>
    rw [hk] at hm hn
    exact hm.1 (by rw [show n.name = a :: t from hn, ha]; rfl)
  | modify p | add p | delete p => rw [hk] at hm hn; exact hm (by rw [hn, ha]; simp)
  | copy o n => rw [hk] at hm hn; exact hm (by rw [hn, ha]; simp)

theorem readPath_iff (c : FileChange) : c.readPath = c.kind.new.name ↔ c.PathReadable := by
  unfold readPath PathReadable
  cases hh : c.hunks with
  | nil =>
    rw [c.movedPath_iff]
    cases c.kind <;> rfl
  | cons h hs =>
    obtain ⟨side, hside, hlabel⟩ := c.namingLabel_eq
    dsimp only
    rw [hlabel, ← labelPath_iff hside]
    split
    · next hempty =>
      have hnil := List.isEmpty_iff.mp hempty
      by_cases hp : Plain c.kind.new.name
      · rw [labelPath_plain hside hp] at hnil ⊢
        rw [hnil]
        have hne := movedPath_ne_of_blank hp hnil
        exact ⟨fun heq => absurd heq hne, fun heq => absurd heq.symm c.kind.new.nonempty⟩
      · rw [labelPath_quoted hside hp, quoteName_quoted hp] at hnil
        exact absurd hnil (by simp)
    · rfl

theorem readSource_iff (c : FileChange) :
    c.readSource = c.renameSource.elim [] GitPath.name ↔ c.SourceReadable := by
  unfold readSource SourceReadable
  cases c.renameSource with
  | none => simp
  | some o => simpa using strip_quoteName_iff o.name

theorem readDiff_iff (c : FileChange) : c.readDiff = c.fileDiff ↔ c.PathReadable ∧ c.SourceReadable := by
  rw [← c.readPath_iff, ← c.readSource_iff]
  unfold readDiff
  constructor
  · intro heq
    exact ⟨congrArg FileDiff.path heq, congrArg FileDiff.renamedFrom heq⟩
  · rintro ⟨hp, hs⟩
    rw [hp, hs]
    rfl

end FileChange

end FailureOrchestrator
