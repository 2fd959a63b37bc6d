import FailureOrchestrator.Regex

namespace FailureOrchestrator

/-- The text `t` stands between two positions. -/
def Cursor.Reads (m m' : Cursor) (t : Str) : Prop := m.rest = t ++ m'.rest ∧ m'.before = t.reverse ++ m.before

namespace Cursor

theorem reads_self (m : Cursor) : m.Reads m [] := ⟨rfl, rfl⟩

theorem Reads.trans {m₁ m₂ m₃ : Cursor} {s t : Str} (h : m₁.Reads m₂ s) (h' : m₂.Reads m₃ t) :
    m₁.Reads m₃ (s ++ t) := by
  refine ⟨?_, ?_⟩
  · rw [h.1, h'.1, List.append_assoc]
  · rw [h'.2, h.2, List.reverse_append, List.append_assoc]

theorem Reads.readTo {m m' : Cursor} {t : Str} (h : m.Reads m' t) : m.readTo m' = t := by
  unfold Cursor.readTo
  rw [h.2, List.length_append, List.length_reverse, Nat.add_sub_cancel]
  have htake : (t.reverse ++ m.before).take t.length = t.reverse := by
    rw [List.take_append_of_le_length (by simp)]
    exact List.take_of_length_le (by simp)
  rw [htake, List.reverse_reverse]

/-- The whole text of two positions with a text between them. -/
theorem Reads.infix {m m' : Cursor} {t : Str} (h : m.Reads m' t) : t <:+: m.before.reverse ++ m.rest := by
  rw [h.1, ← List.append_assoc]
  exact ⟨m.before.reverse, m'.rest, rfl⟩

end Cursor

namespace Regex

theorem stepChar_reads {p : Char → Bool} {m m' : Cursor} (h : m' ∈ stepChar p m) :
    ∃ c, p c = true ∧ m.Reads m' [c] := by
  unfold stepChar at h
  split at h
  · cases h
  next c rest hrest =>
    split at h
    next hc =>
      obtain rfl := List.mem_singleton.mp h
      exact ⟨c, hc, hrest, rfl⟩
    next => cases h

theorem readText_reads {t : Str} {m m' : Cursor} (h : m' ∈ m.readText t) : m.Reads m' t := by
  unfold Cursor.readText at h
  split at h
  · next hp =>
    obtain ⟨rest, hrest⟩ := List.isPrefixOf_iff_prefix.mp hp
    obtain rfl := List.mem_singleton.mp h
    refine ⟨?_, rfl⟩
    rw [← hrest, List.drop_left]
  · cases h

/-- What a step respects, its repetition respects too. -/
theorem iterate_rel {R : Cursor → Cursor → Prop} {f : Cursor → List Cursor} {greedy : Bool} {fuel : Nat} {m m' : Cursor}
    (hrefl : ∀ m, R m m) (htrans : ∀ {m₁ m₂ m₃}, R m₁ m₂ → R m₂ m₃ → R m₁ m₃) (hf : ∀ m m', m' ∈ f m → R m m')
    (h : m' ∈ iterate f greedy fuel m) : R m m' := by
  induction fuel generalizing m with
  | zero =>
    obtain rfl := List.mem_singleton.mp h
    exact hrefl m'
  | succ fuel ih =>
    have hmore : m' ∈ ((f m).flatMap fun m' => if m'.rest.length < m.rest.length then iterate f greedy fuel m' else []) →
        R m m' := by
      intro h
      obtain ⟨m₁, hm₁, h⟩ := List.mem_flatMap.mp h
      split at h
      · exact htrans (hf m m₁ hm₁) (ih h)
      · cases h
    have hstay : m' = m → R m m' := by
      rintro rfl
      exact hrefl m'
    unfold iterate at h
    dsimp only at h
    split at h
    · rcases List.mem_append.mp h with h | h
      · exact hmore h
      · exact hstay (List.mem_singleton.mp h)
    · rcases List.mem_cons.mp h with h | h
      · exact hstay h
      · exact hmore h

variable [UnicodeData]

/-- A match reads the text that stands where it begins. -/
theorem matchesAt_reads {r : Regex} {m m' : Cursor} (h : m' ∈ r.matchesAt m) : ∃ t, m.Reads m' t := by
  induction r generalizing m m' with
  | eps =>
    obtain rfl := List.mem_singleton.mp h
    exact ⟨[], m'.reads_self⟩
  | cls p =>
    obtain ⟨c, -, hread⟩ := stepChar_reads h
    exact ⟨[c], hread⟩
  | bos | bol | eos | wordB =>
    simp only [matchesAt] at h
    split at h
    · obtain rfl := List.mem_singleton.mp h
      exact ⟨[], m'.reads_self⟩
    · cases h
  | seq r s ihr ihs =>
    obtain ⟨m₁, hm₁, h⟩ := List.mem_flatMap.mp h
    obtain ⟨t₁, h₁⟩ := ihr hm₁
    obtain ⟨t₂, h₂⟩ := ihs h
    exact ⟨t₁ ++ t₂, h₁.trans h₂⟩
  | alt r s ihr ihs =>
    rcases List.mem_append.mp h with h | h
    · exact ihr h
    · exact ihs h
  | star greedy r ih =>
    refine iterate_rel (R := fun m m' => ∃ t, m.Reads m' t) (fun m => ⟨[], m.reads_self⟩) ?_ (fun _ _ h => ih h) h
    rintro m₁ m₂ m₃ ⟨s, hs⟩ ⟨t, ht⟩
    exact ⟨s ++ t, hs.trans ht⟩
  | grp n r ih =>
    obtain ⟨m₁, hm₁, rfl⟩ := List.mem_map.mp h
    obtain ⟨t, ht⟩ := ih hm₁
    exact ⟨t, ht⟩
  | ref n =>
    simp only [matchesAt] at h
    cases hg : m.group n with
    | none =>
      rw [hg] at h
      cases h
    | some t =>
      rw [hg] at h
      exact ⟨t, readText_reads h⟩

theorem matchesAt_suffix {r : Regex} {m m' : Cursor} (h : m' ∈ r.matchesAt m) : m'.rest <:+ m.rest := by
  obtain ⟨t, hread, -⟩ := matchesAt_reads h
  exact ⟨t, hread.symm⟩

end Regex

namespace Regex

variable [UnicodeData]

omit [UnicodeData] in
/-- Every match reads a character of the class: read off the pattern. -/
def Needs (p : Char → Bool) : Regex → Prop
  | .cls q => ∀ c, q c = true → p c = true
  | .seq r s => r.Needs p ∨ s.Needs p
  | .alt r s => r.Needs p ∧ s.Needs p
  | .grp _ r => r.Needs p
  | _ => False

/-- Where a pattern that needs a character matches, the text has one. -/
theorem Needs.mem {p : Char → Bool} {r : Regex} (hr : r.Needs p) {m m' : Cursor} (h : m' ∈ r.matchesAt m) :
    ∃ c ∈ m.rest, p c = true := by
  induction r generalizing m m' with
  | eps | bos | bol | eos | wordB | star | ref => exact hr.elim
  | cls q =>
    obtain ⟨c, hc, hread⟩ := stepChar_reads h
    exact ⟨c, by rw [hread.1]; exact List.mem_cons_self, hr c hc⟩
  | seq r s ihr ihs =>
    obtain ⟨m₁, hm₁, h⟩ := List.mem_flatMap.mp h
    rcases hr with hr | hs
    · exact ihr hr hm₁
    · obtain ⟨c, hc, hp⟩ := ihs hs h
      exact ⟨c, (matchesAt_suffix hm₁).subset hc, hp⟩
  | alt r s ihr ihs =>
    rcases List.mem_append.mp h with h | h
    · exact ihr hr.1 h
    · exact ihs hr.2 h
  | grp n r ih =>
    obtain ⟨m₁, hm₁, rfl⟩ := List.mem_map.mp h
    exact ih hr hm₁

theorem Needs.fails {p : Char → Bool} {r : Regex} (hr : r.Needs p) {m : Cursor} (hm : ∀ c ∈ m.rest, p c = false) :
    r.matchesAt m = [] := by
  refine List.eq_nil_iff_forall_not_mem.mpr fun m' hm' => ?_
  obtain ⟨c, hc, hp⟩ := hr.mem hm'
  rw [hm c hc] at hp
  cases hp

theorem Needs.matchStart {p : Char → Bool} {r : Regex} (hr : r.Needs p) {s : Str} (hs : ∀ c ∈ s, p c = false) :
    matchStart r s = none := List.head?_eq_none_iff.mpr (hr.fails hs)

section Search

variable {r : Regex} {p : Char → Bool}

theorem searchFrom_none (hr : r.Needs p) {before s : Str} (hs : ∀ c ∈ s, p c = false) : searchFrom r before s = none := by
  have hnone : ∀ before s, (∀ c ∈ s, p c = false) → (r.matchesAt ⟨before, s, []⟩).head? = none :=
    fun before s hs => List.head?_eq_none_iff.mpr (hr.fails hs)
  induction s generalizing before with
  | nil =>
    unfold searchFrom
    rw [hnone before [] hs]
    rfl
  | cons c s ih =>
    unfold searchFrom
    rw [hnone before (c :: s) hs]
    exact ih fun d hd => hs d (List.mem_cons_of_mem _ hd)

theorem finditer_eq_nil (hr : r.Needs p) {s : Str} (hs : ∀ c ∈ s, p c = false) : finditer r s = [] := by
  unfold finditer
  cases s.length with
  | zero => rfl
  | succ n =>
    unfold findFrom
    rw [show searchFrom r (start s).before (start s).rest = none from searchFrom_none hr hs]
    rfl

/-- A text without the needed characters is left as it is. -/
theorem sub_eq_self (hr : r.Needs p) {s : Str} (hs : ∀ c ∈ s, p c = false) (f : Str → Cursor → Str) : sub r f s = s := by
  unfold sub
  cases hlength : s.length with
  | zero => rfl
  | succ n =>
    unfold subFrom
    rw [show searchFrom r (start s).before (start s).rest = none from searchFrom_none hr hs]
    rfl

/-- A substitution leaves the text as it is, or puts a replacement into it. -/
theorem sub_cases (f : Str → Cursor → Str) (s : Str) :
    sub r f s = s ∨ ∃ t m before after, sub r f s = before ++ f t m ++ after := by
  unfold sub
  cases hlength : s.length with
  | zero => exact .inl rfl
  | succ n =>
    unfold subFrom
    split
    · exact .inl rfl
    next i j _ => exact .inr ⟨_, _, _, _, rfl⟩

end Search

end Regex

namespace Regex

/-- The pattern does not capture the group. -/
def Keeps (n : Nat) : Regex → Prop
  | .seq r s | .alt r s => r.Keeps n ∧ s.Keeps n
  | .star _ r => r.Keeps n
  | .grp k r => k ≠ n ∧ r.Keeps n
  | _ => True

/-- Every character the pattern reads is of the class. -/
def ReadsOnly (p : Char → Bool) : Regex → Prop
  | .cls q => ∀ c, q c = true → p c = true
  | .seq r s | .alt r s => r.ReadsOnly p ∧ s.ReadsOnly p
  | .star _ r | .grp _ r => r.ReadsOnly p
  | .ref _ => False
  | _ => True

variable [UnicodeData] {r : Regex} {m m' : Cursor}

theorem Keeps.group {n : Nat} (hr : r.Keeps n) (h : m' ∈ r.matchesAt m) : m'.group n = m.group n := by
  induction r generalizing m m' with
  | eps => rw [List.mem_singleton.mp h]
  | cls p =>
    simp only [matchesAt, stepChar] at h
    split at h
    · cases h
    · split at h
      · rw [List.mem_singleton.mp h]
        rfl
      · cases h
  | bos | bol | eos | wordB =>
    simp only [matchesAt] at h
    split at h
    · rw [List.mem_singleton.mp h]
    · cases h
  | seq r s ihr ihs =>
    obtain ⟨m₁, hm₁, h⟩ := List.mem_flatMap.mp h
    rw [ihs hr.2 h, ihr hr.1 hm₁]
  | alt r s ihr ihs =>
    rcases List.mem_append.mp h with h | h
    · exact ihr hr.1 h
    · exact ihs hr.2 h
  | star greedy r ih =>
    refine iterate_rel (R := fun m m' => m'.group n = m.group n) (fun _ => rfl) ?_ (fun _ _ h => ih hr h) h
    intro m₁ m₂ m₃ h₁ h₂
    rw [h₂, h₁]
  | grp k r ih =>
    obtain ⟨m₁, hm₁, rfl⟩ := List.mem_map.mp h
    rw [← ih hr.2 hm₁]
    unfold Cursor.group Cursor.capture
    rw [List.lookup_cons, beq_false_of_ne (Ne.symm hr.1)]
  | ref k =>
    simp only [matchesAt] at h
    cases hg : m.group k with
    | none =>
      rw [hg] at h
      cases h
    | some t =>
      rw [hg] at h
      simp only [Option.elim_some, Cursor.readText] at h
      split at h
      · rw [List.mem_singleton.mp h]
        rfl
      · cases h

theorem ReadsOnly.reads {p : Char → Bool} (hr : r.ReadsOnly p) (h : m' ∈ r.matchesAt m) :
    ∃ t, m.Reads m' t ∧ ∀ c ∈ t, p c = true := by
  induction r generalizing m m' with
  | eps =>
    obtain rfl := List.mem_singleton.mp h
    exact ⟨[], m'.reads_self, by simp⟩
  | cls q =>
    obtain ⟨c, hc, hread⟩ := stepChar_reads h
    refine ⟨[c], hread, ?_⟩
    intro d hd
    rw [List.mem_singleton.mp hd]
    exact hr c hc
  | bos | bol | eos | wordB =>
    simp only [matchesAt] at h
    split at h
    · obtain rfl := List.mem_singleton.mp h
      exact ⟨[], m'.reads_self, by simp⟩
    · cases h
  | seq r s ihr ihs =>
    obtain ⟨m₁, hm₁, h⟩ := List.mem_flatMap.mp h
    obtain ⟨t₁, h₁, hp₁⟩ := ihr hr.1 hm₁
    obtain ⟨t₂, h₂, hp₂⟩ := ihs hr.2 h
    exact ⟨t₁ ++ t₂, h₁.trans h₂, List.forall_mem_append.mpr ⟨hp₁, hp₂⟩⟩
  | alt r s ihr ihs =>
    rcases List.mem_append.mp h with h | h
    · exact ihr hr.1 h
    · exact ihs hr.2 h
  | star greedy r ih =>
    refine iterate_rel (R := fun m m' => ∃ t, m.Reads m' t ∧ ∀ c ∈ t, p c = true)
      (fun m => ⟨[], m.reads_self, by simp⟩) ?_ (fun _ _ h => ih hr h) h
    rintro m₁ m₂ m₃ ⟨s, hs, hps⟩ ⟨t, ht, hpt⟩
    exact ⟨s ++ t, hs.trans ht, List.forall_mem_append.mpr ⟨hps, hpt⟩⟩
  | grp n r ih =>
    obtain ⟨m₁, hm₁, rfl⟩ := List.mem_map.mp h
    obtain ⟨t, hread, hp⟩ := ih hr hm₁
    exact ⟨t, hread, hp⟩
  | ref n => exact hr.elim

/-- A group of a class of characters holds characters of that class. -/
theorem ReadsOnly.captured {p : Char → Bool} {n : Nat} (hr : r.ReadsOnly p) (h : m' ∈ (Regex.grp n r).matchesAt m) :
    ∃ t, m'.group n = some t ∧ ∀ c ∈ t, p c = true := by
  obtain ⟨m₁, hm₁, rfl⟩ := List.mem_map.mp h
  obtain ⟨t, hread, hp⟩ := hr.reads hm₁
  refine ⟨t, ?_, hp⟩
  unfold Cursor.group Cursor.capture
  rw [List.lookup_cons, beq_self_eq_true, hread.readTo]

end Regex

end FailureOrchestrator
