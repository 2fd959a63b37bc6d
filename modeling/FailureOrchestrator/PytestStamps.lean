import FailureOrchestrator.PytestResult

namespace FailureOrchestrator

open Regex

/-! The lines of a log and their time stamps. -/

theorem isSpace_of_isLineBreak {c : Char} (h : isLineBreak c = true) : isSpace c = true := by
  unfold isLineBreak at h
  unfold isSpace
  simp only [Bool.or_eq_true, Bool.and_eq_true, decide_eq_true_eq, beq_iff_eq] at h ⊢
  omega

theorem resultChar_toNat {c : Char} (h : resultChar c = true) : 32 ≤ c.toNat ∧ c.toNat ≤ 126 ∧ c ≠ '-' := by
  simp only [resultChar, Bool.or_eq_true] at h
  rcases h with (h | h) | h
  · have hd := isDigit_toNat h
    refine ⟨by omega, by omega, ?_⟩
    rintro rfl
    cases h
  · have ha : 'a'.toNat ≤ c.toNat := (of_decide_eq_true (Bool.and_eq_true_iff.mp h).1 : 'a' ≤ c)
    have hz : c.toNat ≤ 'z'.toNat := (of_decide_eq_true (Bool.and_eq_true_iff.mp h).2 : c ≤ 'z')
    have ha' : 'a'.toNat = 97 := rfl
    have hz' : 'z'.toNat = 122 := rfl
    refine ⟨by omega, by omega, ?_⟩
    rintro rfl
    cases h
  · have hall : ∀ c ∈ "=.,: ()".toList, 32 ≤ c.toNat ∧ c.toNat ≤ 126 ∧ c ≠ '-' := by decide
    exact hall c (List.contains_iff_mem.mp h)

theorem SummaryKind.word_unbroken (kind : SummaryKind) : Unbroken kind.word := by
  cases kind <;> decide

theorem SummaryLine.text_unbroken (l : SummaryLine) : Unbroken l.text := by
  have hid : Unbroken l.nodeid := by
    intro c hc
    refine Bool.eq_false_iff.mpr fun hbreak => ?_
    rw [l.nodeid_printable c hc (isSpace_of_isLineBreak hbreak)] at hbreak
    cases hbreak
  have hdetail : Unbroken (detailText (l.detail.map (·.text))) := by
    cases l.detail with
    | none => exact .nil
    | some d => exact Unbroken.append (by decide) d.unbroken
  exact l.kind.word_unbroken.append (.cons (by decide) (hid.append hdetail))

/-- Every character of a text is one of a result line's. -/
def ResultText (t : Str) : Prop := ∀ c ∈ t, resultChar c = true

theorem ResultText.append {s t : Str} (hs : ResultText s) (ht : ResultText t) : ResultText (s ++ t) :=
  List.forall_mem_append.mpr ⟨hs, ht⟩

theorem ResultText.cons {c : Char} {t : Str} (hc : resultChar c = true) (ht : ResultText t) : ResultText (c :: t) :=
  List.forall_mem_cons.mpr ⟨hc, ht⟩

theorem ResultText.unbroken {t : Str} (h : ResultText t) : Unbroken t := fun c hc =>
  isLineBreak_of_printable ⟨(resultChar_toNat (h c hc)).1, (resultChar_toNat (h c hc)).2.1⟩

theorem resultChar_of_isDigit {c : Char} (h : c.isDigit = true) : resultChar c = true := by
  simp [resultChar, h]

theorem bar_resultText (n : Nat) : ResultText (bar n) := by
  intro c hc
  rw [(List.mem_replicate.mp hc).2]
  rfl

theorem headingText_resultText (n : Nat × Nat) : ResultText (headingText n) :=
  (bar_resultText n.1).append (.append (by unfold ResultText; decide) (bar_resultText n.2))

theorem itemsText_resultText {is : List (Nat × Str)} (his : ∀ i ∈ is, i.2 ≠ [] ∧ ∀ c ∈ i.2, between 'a' 'z' c = true) :
    ResultText (itemsText is) := by
  have hitem : ∀ i ∈ is, ResultText (itemText i) := by
    intro i hi
    refine ResultText.append (fun c hc => resultChar_of_isDigit (natStr_isDigit hc)) (.cons rfl ?_)
    intro c hc
    simp [resultChar, (his i hi).2 c hc]
  clear his
  induction is with
  | nil => exact fun c hc => nomatch hc
  | cons i is ih =>
    have hi := hitem i List.mem_cons_self
    cases is with
    | nil => exact hi
    | cons j is =>
      have hmore := ih fun k hk => hitem k (List.mem_cons_of_mem _ hk)
      exact hi.append (.append (by unfold ResultText; decide) hmore)

theorem ResultLine.core_resultText (r : ResultLine) : ResultText r.core := by
  have hbody : ResultText r.body := by
    unfold ResultLine.body
    split
    · unfold ResultText
      decide
    · exact itemsText_resultText r.words
  have hseconds : ResultText r.seconds := by
    intro c hc
    rcases r.seconds_chars c hc with h | rfl
    · exact resultChar_of_isDigit h
    · rfl
  have hduration : ResultText (durationText r.duration) := by
    cases hd : r.duration with
    | none => exact fun c hc => nomatch hc
    | some d =>
      have hchars : ResultText d := fun c hc => (r.duration_chars d hd c hc).1
      exact ResultText.append (by unfold ResultText; decide) (hchars.append (by unfold ResultText; decide))
  exact hbody.append (.append (by unfold ResultText; decide) (hseconds.append (.cons rfl hduration)))

theorem ResultLine.text_resultText (r : ResultLine) : ResultText r.text := by
  unfold ResultLine.text
  cases r.bars with
  | none => exact r.core_resultText
  | some n => exact (bar_resultText n.1).append (.cons rfl (r.core_resultText.append (.cons rfl (bar_resultText n.2))))

theorem CiStamp.text_unbroken (s : CiStamp) : Unbroken s.text := by
  have hdigits : ∀ {t : Str}, (∀ c ∈ t, c.isDigit = true) → Unbroken t := by
    intro t ht c hc
    have hd := isDigit_toNat (ht c hc)
    exact isLineBreak_of_printable (by omega)
  have hclock : Unbroken s.clock := by
    intro c hc
    rcases s.clock_chars c hc with h | rfl | rfl
    · exact hdigits (fun d hd => by rw [List.mem_singleton.mp hd]; exact h) c (List.mem_singleton_self c)
    · rfl
    · rfl
  exact (hdigits s.year_digits.2).append (.cons rfl ((hdigits s.month_digits.2).append (.cons rfl
    ((hdigits s.day_digits.2).append (.cons rfl (hclock.append (by decide)))))))

theorem stamped_unbroken {stamp : Option CiStamp} {l : Str} (h : Unbroken l) : Unbroken (stamped stamp l) := by
  cases stamp with
  | none => exact h
  | some s => exact s.text_unbroken.append h

section

variable [UnicodeData]

theorem takes_stamp (s : CiStamp) {rest : Str} : timestampPrefixRe.Takes (start (s.text ++ rest))
    ⟨s.text.reverse, rest, []⟩ := by
  have hdigits : ∀ {t : Str}, (∀ c ∈ t, c.isDigit = true) → ∀ c ∈ t, isDecimal c = true :=
    fun ht c hc => isDecimal_of_isDigit (ht c hc)
  have hclock : ∀ c ∈ s.clock, (isDecimal c || c == ':' || c == '.') = true := by
    intro c hc
    rcases s.clock_chars c hc with h | rfl | rfl
    · rw [isDecimal_of_isDigit h]
      rfl
    · simp
    · simp
  have hz : (isDecimal 'Z' || 'Z' == ':' || 'Z' == '.') = false := by
    simp [isDecimal, UnicodeData.decimal_ascii 'Z' (by decide)]
  have hshape : s.text ++ rest =
      s.year ++ ('-' :: (s.month ++ ('-' :: (s.day ++ ('T' :: (s.clock ++ ('Z' :: ' ' :: rest))))))) := by
    simp [CiStamp.text]
  have hend : s.text.reverse = ' ' :: 'Z' :: (s.clock.reverse ++ ('T' :: (s.day.reverse ++ ('-' ::
      (s.month.reverse ++ ('-' :: (s.year.reverse ++ []))))))) := by
    simp [CiStamp.text]
  rw [hshape, hend]
  exact takes_bos.cons ((takes_exactly (hdigits s.year_digits.2) s.year_digits.1).cons ((takes_chr '-').cons
    ((takes_exactly (hdigits s.month_digits.2) s.month_digits.1).cons ((takes_chr '-').cons
    ((takes_exactly (hdigits s.day_digits.2) s.day_digits.1).cons ((takes_chr 'T').cons
    ((takes_some1 s.clock_nonempty hclock (by simpa using hz)).cons ((takes_chr 'Z').cons
    ((takes_cls (c := ' ') rfl).left.cons takes_nil)))))))))

/-- A line without its time stamp and its trailing white space. -/
def untimed (line : Str) : Str := sub timestampPrefixRe (fun _ _ => []) (rstrip line)

theorem outputLines_unlines {ls : List Str} (h : ∀ l ∈ ls, Unbroken l) : outputLines (unlines ls) = ls.map untimed := by
  unfold outputLines
  rw [splitlines_unlines h]
  rfl

/-- A time stamp is taken off a line that does not begin with one itself. -/
theorem untimed_stamped (stamp : Option CiStamp) {l : Str} (hl : ∃ c ∈ l, isSpace c = false)
    (hplain : sub timestampPrefixRe (fun _ _ => []) (rstrip l) = rstrip l) : untimed (stamped stamp l) = rstrip l := by
  cases stamp with
  | none => exact hplain
  | some s =>
    have hne : s.text ≠ [] := by simp [CiStamp.text]
    unfold untimed stamped
    rw [Option.elim_some, rstrip_append_nonblank hl]
    exact sub_bos_takes hne (takes_stamp s) _

theorem SummaryKind.word_cons (kind : SummaryKind) :
    ∃ c t, kind.word = c :: t ∧ isSpace c = false ∧ isDecimal c = false := by
  cases kind with
  | failed => exact ⟨'F', "AILED".toList, rfl, rfl, by simp [isDecimal, UnicodeData.decimal_ascii 'F' (by decide)]⟩
  | error => exact ⟨'E', "RROR".toList, rfl, rfl, by simp [isDecimal, UnicodeData.decimal_ascii 'E' (by decide)]⟩

theorem untimed_summary (stamp : Option CiStamp) (l : SummaryLine) : untimed (stamped stamp l.text) = rstrip l.text := by
  obtain ⟨c, t, hword, hspace, hdecimal⟩ := l.kind.word_cons
  have htext : l.text = c :: (t ++ ' ' :: (l.nodeid ++ detailText (l.detail.map (·.text)))) := by
    unfold SummaryLine.text summaryText
    rw [hword]
    rfl
  have hcut : rstrip l.text = c :: rstrip (t ++ ' ' :: (l.nodeid ++ detailText (l.detail.map (·.text)))) := by
    rw [htext]
    exact rstrip_append hspace (s := []) _
  refine untimed_stamped stamp ⟨c, by rw [htext]; exact List.mem_cons_self, hspace⟩ (sub_bos_fails ?_ _)
  rw [hcut]
  change [start (c :: rstrip _)].flatMap _ = []
  rw [List.flatMap_singleton]
  exact seq_fails (seq_fails (cls_fails (by simpa [start] using hdecimal)))

theorem sub_resultText {t : Str} (h : ResultText t) : sub timestampPrefixRe (fun _ _ => []) t = t := by
  refine sub_eq_self (p := (· == '-')) ?_ (fun c hc => ?_) _
  · simp [timestampPrefixRe, cat, Needs, chr]
  · simpa using (resultChar_toNat (h c hc)).2.2

/-- A line that ends in a character of its own is not cut. -/
theorem untimed_resultText (stamp : Option CiStamp) {t : Str} {c : Char} (h : ResultText (t ++ [c]))
    (hc : isSpace c = false) : untimed (stamped stamp (t ++ [c])) = t ++ [c] := by
  have hcut : rstrip (t ++ [c]) = t ++ [c] := rstrip_concat hc t
  rw [untimed_stamped stamp ⟨c, by simp, hc⟩ (by rw [hcut]; exact sub_resultText h), hcut]

end

end FailureOrchestrator
