import FailureOrchestrator.GitDiff
import FailureOrchestrator.RegexMatch

namespace FailureOrchestrator

open Regex

theorem isDigit_lt_ascii {c : Char} (h : c.isDigit = true) : c.toNat < 128 := by
  simp only [Char.isDigit, ge_iff_le, Bool.and_eq_true, decide_eq_true_eq] at h
  have hb : c.toNat ≤ '9'.toNat := h.2
  have h9 : '9'.toNat = 57 := rfl
  omega

theorem natStr_isDigit {n : Nat} {c : Char} (hc : c ∈ natStr n) : c.isDigit = true :=
  Nat.isDigit_of_mem_toDigits (by omega) (by omega) hc

theorem natStr_ne_nil (n : Nat) : natStr n ≠ [] := Nat.toDigits_ne_nil

/-- Numbers that `int()` still converts. -/
def Convertible (n : Nat) : Prop := n < 10 ^ maxStrDigits

theorem natStr_length_le {n : Nat} : (natStr n).length ≤ maxStrDigits ↔ Convertible n :=
  Nat.length_toDigits_le_iff (by omega) (by decide)

variable [UnicodeData]

theorem isDecimal_of_isDigit {c : Char} (h : c.isDigit = true) : isDecimal c = true := by
  simp [isDecimal, UnicodeData.decimal_ascii c (isDigit_lt_ascii h), h]

theorem natStr_isDecimal {n : Nat} {c : Char} (hc : c ∈ natStr n) : isDecimal c = true :=
  isDecimal_of_isDigit (natStr_isDigit hc)

theorem isDecimal_space : isDecimal ' ' = false := by
  simp [isDecimal, UnicodeData.decimal_ascii ' ' (by decide)]

theorem isDecimal_comma : isDecimal ',' = false := by
  simp [isDecimal, UnicodeData.decimal_ascii ',' (by decide)]

theorem decimalValue_eq_ofDigitChars {ds : Str} (h : ∀ c ∈ ds, c.isDigit = true) :
    decimalValue ds = Nat.ofDigitChars 10 ds 0 := by
  rw [Nat.ofDigitChars_eq_foldl, decimalValue]
  refine List.foldl_ext _ _ _ fun n c hc => ?_
  have hd := h c hc
  simp [UnicodeData.decimal_ascii c (isDigit_lt_ascii hd), hd]

theorem decimalValue_natStr (n : Nat) : decimalValue (natStr n) = n := by
  rw [decimalValue_eq_ofDigitChars fun c hc => natStr_isDigit hc]
  exact Nat.ofDigitChars_toDigits (by omega) (by omega)

theorem pyInt_natStr {n : Nat} (h : Convertible n) : pyInt (natStr n) = .ok n := by
  simp [pyInt, natStr_length_le.mpr h, decimalValue_natStr]

theorem pyInt_natStr_error {n : Nat} (h : ¬ Convertible n) : ∃ e, pyInt (natStr n) = .error e := by
  have hl : ¬ (natStr n).length ≤ maxStrDigits := fun hh => h (natStr_length_le.mp hh)
  exact ⟨_, if_neg hl⟩

/-- The pattern reads a run of digits whole; `keep` is what it captures of it. -/
def ReadsDigits (first : Regex) (keep : Str → List (Nat × Str) → List (Nat × Str)) : Prop :=
  ∀ {k : Cursor → List Cursor}, (∀ b c rest g, isDecimal c = true → k ⟨b, c :: rest, g⟩ = []) →
    ∀ {ds : Str}, ds ≠ [] → ∀ rest : Str, (∀ c ∈ ds, isDecimal c = true) → (∀ c ∈ rest.head?, isDecimal c = false) →
      ∀ b g, (first.matchesAt ⟨b, ds ++ rest, g⟩).flatMap k = k ⟨ds.reverse ++ b, rest, keep ds g⟩

theorem readsDigits_digits : ReadsDigits (some1 digit) fun _ g => g :=
  fun stop _ hne rest hds hrest b g => some1_run stop hne rest hds hrest b g

theorem readsDigits_grp (n : Nat) : ReadsDigits (.grp n (some1 digit)) fun ds g => (n, ds) :: g :=
  fun stop _ hne rest hds hrest b g => grp_some1_run stop hne rest hds hrest n b g

/-- The groups after one side of a hunk header. -/
def rangeGroups (keep : Str → List (Nat × Str) → List (Nat × Str)) (n start count : Nat) (g : List (Nat × Str)) :
    List (Nat × Str) :=
  if count = 1 then keep (natStr start) g else (n, natStr count) :: keep (natStr start) g

/-- The number and the optional count of one side of a hunk header are read whole, because
what follows starts with a space. -/
theorem matchesAt_hunkRange {first : Regex} {keep : Str → List (Nat × Str) → List (Nat × Str)}
    (hfirst : ReadsDigits first keep) {rs : List Regex}
    (stop : ∀ b c rest g, c ≠ ' ' → (cat rs).matchesAt ⟨b, c :: rest, g⟩ = [])
    (n start count : Nat) (b rest : Str) (g : List (Nat × Str)) :
    (cat (first :: opt (cat [chr ',', .grp n (some1 digit)]) :: rs)).matchesAt
      ⟨b, hunkRange start count ++ ' ' :: rest, g⟩ =
    (cat rs).matchesAt ⟨(hunkRange start count).reverse ++ b, ' ' :: rest, rangeGroups keep n start count g⟩ := by
  have notSpace : ∀ c, isDecimal c = true → c ≠ ' ' := by
    rintro c hc rfl
    simp [isDecimal_space] at hc
  have notComma : ∀ c, isDecimal c = true → c ≠ ',' := by
    rintro c hc rfl
    simp [isDecimal_comma] at hc
  have stopOpt : ∀ b c rest g, isDecimal c = true →
      (cat (opt (cat [chr ',', .grp n (some1 digit)]) :: rs)).matchesAt ⟨b, c :: rest, g⟩ = [] := by
    intro b c rest g hc
    simp [matchesAt_opt, matchesAt_chr_cons, notComma c hc, stop b c rest g (notSpace c hc)]
  by_cases hone : count = 1
  · have run := hfirst stopOpt (natStr_ne_nil start) (' ' :: rest) (fun c hc => natStr_isDecimal hc)
      (by simp [isDecimal_space]) b g
    simp only [hunkRange, rangeGroups, hone, ↓reduceIte, List.append_nil]
    refine run.trans ?_
    simp [matchesAt_opt, matchesAt_chr_cons]
  · have run := hfirst stopOpt (natStr_ne_nil start) (',' :: natStr count ++ ' ' :: rest)
      (fun c hc => natStr_isDecimal hc) (by simp [isDecimal_comma]) b g
    have inner := grp_some1_run (k := (cat rs).matchesAt)
      (fun b c rest g hc => stop b c rest g (notSpace c hc))
      (natStr_ne_nil count) (' ' :: rest) (fun c hc => natStr_isDecimal hc)
      (by simp [isDecimal_space]) n (',' :: ((natStr start).reverse ++ b)) (keep (natStr start) g)
    have comma := stop ((natStr start).reverse ++ b) ',' (natStr count ++ ' ' :: rest) (keep (natStr start) g)
      (by decide)
    simp only [hunkRange, rangeGroups, hone, ↓reduceIte, List.append_assoc, List.cons_append] at run ⊢
    refine run.trans ?_
    rw [matchesAt_cat_cons, matchesAt_opt]
    simp only [matchesAt_cat_cons, matchesAt_chr_cons, BEq.rfl, ↓reduceIte, List.flatMap_cons,
      List.flatMap_nil, List.append_nil, List.flatMap_append, comma]
    simpa [digit] using inner

/-- A hunk header is read in one way, whatever follows it on the line. -/
theorem matchStart_header {first first' : Regex} {keep keep' : Str → List (Nat × Str) → List (Nat × Str)}
    (hfirst : ReadsDigits first keep) (hfirst' : ReadsDigits first' keep')
    (n n' oldStart oldCount newStart newCount : Nat) (tail : Str) :
    ∃ b, matchStart (cat [.bos, lit "@@ -", first, opt (cat [chr ',', .grp n (some1 digit)]), lit " +", first',
        opt (cat [chr ',', .grp n' (some1 digit)]), lit " @@"]) ("@@ -".toList ++ hunkRange oldStart oldCount ++
        " +".toList ++ hunkRange newStart newCount ++ " @@".toList ++ tail) =
      some ⟨b, tail, rangeGroups keep' n' newStart newCount (rangeGroups keep n oldStart oldCount [])⟩ := by
  have stopLast : ∀ b c rest g, c ≠ ' ' → (cat [lit " @@"]).matchesAt ⟨b, c :: rest, g⟩ = [] := by
    intro b c rest g hc
    simp [matchesAt_lit, Cursor.readText, Ne.symm hc]
  have stopPlus : ∀ b c rest g, c ≠ ' ' →
      (cat [lit " +", first', opt (cat [chr ',', .grp n' (some1 digit)]), lit " @@"]).matchesAt
        ⟨b, c :: rest, g⟩ = [] := by
    intro b c rest g hc
    rw [matchesAt_cat_cons, matchesAt_lit]
    simp [Cursor.readText, Ne.symm hc]
  have shape : "@@ -".toList ++ hunkRange oldStart oldCount ++ " +".toList ++ hunkRange newStart newCount ++
      " @@".toList ++ tail = "@@ -".toList ++ (hunkRange oldStart oldCount ++ ' ' :: ("+".toList ++
        (hunkRange newStart newCount ++ ' ' :: ("@@".toList ++ tail)))) := by
    simp
  have opened : ∀ rs t, (cat (.bos :: lit "@@ -" :: rs)).matchesAt (start ("@@ -".toList ++ t)) =
      (cat rs).matchesAt ⟨("@@ -".toList).reverse, t, []⟩ := by
    intro rs t
    simp [matchesAt, matchesAt_lit, start, Cursor.readText]
  have plus : ∀ rs b t g, (cat (lit " +" :: rs)).matchesAt ⟨b, ' ' :: ("+".toList ++ t), g⟩ =
      (cat rs).matchesAt ⟨'+' :: ' ' :: b, t, g⟩ := by
    intro rs b t g
    simp [matchesAt_lit, Cursor.readText]
  have last : ∀ b t g, (cat [lit " @@"]).matchesAt ⟨b, ' ' :: ("@@".toList ++ t), g⟩ =
      [⟨'@' :: '@' :: ' ' :: b, t, g⟩] := by
    intro b t g
    simp [matchesAt_lit, Cursor.readText]
  unfold matchStart
  rw [shape, opened, matchesAt_hunkRange hfirst stopPlus, plus, matchesAt_hunkRange hfirst' stopLast, last]
  exact ⟨_, rfl⟩

/-- Both counts of a hunk header are recovered, whatever follows it on the line. -/
theorem matchStart_counts (oldStart oldCount newStart newCount : Nat) (tail : Str) :
    ∃ m, matchStart hunkRe ("@@ -".toList ++ hunkRange oldStart oldCount ++ " +".toList ++
        hunkRange newStart newCount ++ " @@".toList ++ tail) = some m ∧
      m.group 1 = (if oldCount = 1 then none else some (natStr oldCount)) ∧
      m.group 2 = (if newCount = 1 then none else some (natStr newCount)) := by
  obtain ⟨b, hw⟩ := matchStart_header readsDigits_digits readsDigits_digits 1 2 oldStart oldCount newStart newCount tail
  refine ⟨_, hw, ?_, ?_⟩
  · by_cases ho : oldCount = 1 <;> by_cases hn : newCount = 1 <;>
      simp [Cursor.group, rangeGroups, ho, hn, List.lookup_cons]
  · by_cases ho : oldCount = 1 <;> by_cases hn : newCount = 1 <;>
      simp [Cursor.group, rangeGroups, ho, hn, List.lookup_cons]

theorem matchStart_hunkHeader (h : Hunk) : ∃ m, matchStart hunkRe h.header = some m ∧
    m.group 1 = (if h.oldCount = 1 then none else some (natStr h.oldCount)) ∧
    m.group 2 = (if h.newCount = 1 then none else some (natStr h.newCount)) :=
  matchStart_counts h.oldStart h.oldCount h.newStart h.newCount _

/-- A count that is left out of the header is one, any other is converted. -/
theorem countText_pyInt {n : Nat} (h : Convertible n) :
    (if n = 1 then none else some (natStr n)).elim (.ok 1) pyInt = .ok n := by
  by_cases hn : n = 1
  · simp [hn]
  · simp [hn, pyInt_natStr h]

theorem countText_pyInt_error {n : Nat} (h : ¬ Convertible n) :
    ∃ e, (if n = 1 then none else some (natStr n)).elim (.ok 1) pyInt = .error e := by
  have hn : n ≠ 1 := by
    rintro rfl
    exact h (Nat.one_lt_pow (by decide) (by omega))
  simpa [hn] using pyInt_natStr_error h

/-- The counts of a hunk that the reader can convert. -/
def Hunk.Countable (h : Hunk) : Prop := Convertible h.oldCount ∧ Convertible h.newCount

theorem hunkCounts_header {h : Hunk} (hc : h.Countable) :
    hunkCounts h.header = .ok (some (h.oldCount, h.newCount)) := by
  obtain ⟨m, hm, h1, h2⟩ := matchStart_hunkHeader h
  simp only [hunkCounts, hm, h1, h2, countText_pyInt hc.1, countText_pyInt hc.2]
  rfl

/-- A header with a count that is too long for `int` is an error of the reader. -/
theorem hunkCounts_error {raw : Str} {m : Cursor} {oldCount newCount : Nat} (hm : matchStart hunkRe raw = some m)
    (h1 : m.group 1 = (if oldCount = 1 then none else some (natStr oldCount)))
    (h2 : m.group 2 = (if newCount = 1 then none else some (natStr newCount)))
    (hc : ¬ (Convertible oldCount ∧ Convertible newCount)) : ∃ e, hunkCounts raw = .error e := by
  simp only [hunkCounts, hm, h1, h2]
  by_cases ho : Convertible oldCount
  · obtain ⟨e, he⟩ := countText_pyInt_error (fun hn => hc ⟨ho, hn⟩)
    rw [countText_pyInt ho, he]
    exact ⟨e, rfl⟩
  · obtain ⟨e, he⟩ := countText_pyInt_error ho
    rw [he]
    exact ⟨e, rfl⟩

theorem hunkCounts_header_error {h : Hunk} (hc : ¬ h.Countable) :
    ∃ e, hunkCounts h.header = .error e := by
  obtain ⟨m, hm, h1, h2⟩ := matchStart_hunkHeader h
  exact hunkCounts_error hm h1 h2 hc

end FailureOrchestrator
