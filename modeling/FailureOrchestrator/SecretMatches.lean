import FailureOrchestrator.RegexEnds
import FailureOrchestrator.Sanitization

namespace FailureOrchestrator

open Regex

/-! The texts that the patterns for secrets match. -/

def bearerChar (c : Char) : Bool := isFoldedLetter c || c.isDigit || "._~+/=-".toList.contains c

def tokenChar (c : Char) : Bool := isFoldedLetter c || c.isDigit

def keyChar (c : Char) : Bool := c.isDigit || between 'A' 'Z' c

def valueChar (c : Char) : Bool := !(isSpace c || ",;'\"\n".toList.contains c)

/-- Every character of the text is of the class. -/
def RunOf (p : Char → Bool) (t : Str) : Prop := ∀ c ∈ t, p c = true

def BearerText (t : Str) : Prop :=
  ∃ w sp run, t = w ++ (sp ++ run) ∧ FoldsTo "bearer".toList w ∧ sp ≠ [] ∧ RunOf isSpace sp ∧ 8 ≤ run.length ∧
    RunOf bearerChar run

def GithubText (t : Str) : Prop :=
  ∃ w o run, t = w ++ (o :: '_' :: run) ∧ FoldsTo "gh".toList w ∧ ("pousr".toList.any fun x => sameFold x o) = true ∧
    20 ≤ run.length ∧ RunOf tokenChar run

def AwsText (t : Str) : Prop := ∃ run, t = "AKIA".toList ++ run ∧ run.length = 16 ∧ RunOf keyChar run

def AssignmentName (t : Str) : Prop :=
  (∃ a sep k, t = a ++ (sep ++ k) ∧ FoldsTo "api".toList a ∧ (sep = [] ∨ ∃ c, "_-".toList.contains c = true ∧ sep = [c]) ∧
    FoldsTo "key".toList k) ∨
  ∃ u ∈ ["password", "secret", "token", "authorization"], FoldsTo u.toList t

def AssignmentSign (t : Str) : Prop :=
  ∃ sp c sp', t = sp ++ (c :: sp') ∧ RunOf isSpace sp ∧ ":=".toList.contains c = true ∧ RunOf isSpace sp'

def AssignmentValue (t : Str) : Prop := t ≠ [] ∧ RunOf valueChar t

def SchemeText (t : Str) : Prop := ∃ u ∈ ["postgres", "mysql", "mongodb", "redis"], FoldsTo u.toList t

def ConnectionText (t : Str) : Prop :=
  ∃ w run, t = w ++ ("://".toList ++ run) ∧ SchemeText w ∧ run ≠ [] ∧ RunOf (fun c => !isSpace c) run

def KeyLine (mark : String) (t : Str) : Prop :=
  ∃ k, (k = [] ∨ ∃ u ∈ [" RSA", " OPENSSH", " EC"], k = u.toList) ∧
    t = "-----".toList ++ (mark.toList ++ (k ++ " PRIVATE KEY-----".toList))

def PrivateKeyText (t : Str) : Prop := ∃ b body e, t = b ++ (body ++ e) ∧ KeyLine "BEGIN" b ∧ KeyLine "END" e

section

variable [UnicodeData] {b x : Str} {g : List (Nat × Str)} {m' : Cursor}

theorem mem_bearer_iff : m' ∈ SecretKind.bearer.pattern.matchesAt ⟨b, x, g⟩ ↔
    ∃ t v, x = t ++ v ∧ BearerText t ∧ m' = ⟨t.reverse ++ b, v, g⟩ := by
  unfold SecretKind.pattern
  simp only [mem_cat_cons_iff, mem_cat_nil_iff]
  constructor
  · rintro ⟨m₁, h₁, m₂, h₂, m₃, h₃, rfl⟩
    obtain ⟨w, v, rfl, hw, rfl⟩ := mem_ilit_iff.mp h₁
    obtain ⟨sp, v, rfl, hne, hsp, rfl⟩ := mem_some1_cls_iff.mp h₂
    obtain ⟨run, v, rfl, hlen, hrun, rfl⟩ := mem_atLeast_cls_iff.mp h₃
    exact ⟨w ++ (sp ++ run), v, by simp, ⟨w, sp, run, rfl, hw, hne, hsp, hlen, hrun⟩, by simp⟩
  · rintro ⟨t, v, rfl, ⟨w, sp, run, rfl, hw, hne, hsp, hlen, hrun⟩, rfl⟩
    refine ⟨_, mem_ilit_iff.mpr ⟨w, sp ++ (run ++ v), by simp, hw, rfl⟩, _,
      mem_some1_cls_iff.mpr ⟨sp, run ++ v, rfl, hne, hsp, rfl⟩, _,
      mem_atLeast_cls_iff.mpr ⟨run, v, rfl, hlen, hrun, rfl⟩, by simp⟩

theorem mem_githubToken_iff : m' ∈ SecretKind.githubToken.pattern.matchesAt ⟨b, x, g⟩ ↔
    atWordBoundary ⟨b, x, g⟩ = true ∧ ∃ t v, x = t ++ v ∧ GithubText t ∧
      atWordBoundary ⟨t.reverse ++ b, v, g⟩ = true ∧ m' = ⟨t.reverse ++ b, v, g⟩ := by
  unfold SecretKind.pattern
  simp only [mem_cat_cons_iff, mem_cat_nil_iff, mem_wordB_iff]
  constructor
  · rintro ⟨m₀, ⟨hb, rfl⟩, m₁, h₁, m₂, h₂, m₃, h₃, m₄, h₄, m₅, ⟨hb', rfl⟩, rfl⟩
    obtain ⟨w, v, rfl, hw, rfl⟩ := mem_ilit_iff.mp h₁
    obtain ⟨o, v, rfl, ho, rfl⟩ := mem_cls_iff.mp h₂
    obtain ⟨u, v, rfl, hu, rfl⟩ := mem_cls_iff.mp h₃
    obtain rfl : u = '_' := beq_iff_eq.mp hu
    obtain ⟨run, v, rfl, hlen, hrun, rfl⟩ := mem_atLeast_cls_iff.mp h₄
    have hshape : run.reverse ++ '_' :: o :: (w.reverse ++ b) = (w ++ (o :: '_' :: run)).reverse ++ b := by simp
    rw [hshape] at hb' ⊢
    exact ⟨hb, w ++ (o :: '_' :: run), v, by simp, ⟨w, o, run, rfl, hw, ho, hlen, hrun⟩, hb', rfl⟩
  · rintro ⟨hb, t, v, rfl, ⟨w, o, run, rfl, hw, ho, hlen, hrun⟩, hb', rfl⟩
    refine ⟨_, ⟨hb, rfl⟩, _, mem_ilit_iff.mpr ⟨w, o :: '_' :: (run ++ v), by simp, hw, rfl⟩, _,
      mem_cls_iff.mpr ⟨o, '_' :: (run ++ v), rfl, ho, rfl⟩, _,
      mem_cls_iff.mpr ⟨'_', run ++ v, rfl, by decide, rfl⟩, _,
      mem_atLeast_cls_iff.mpr ⟨run, v, rfl, hlen, hrun, rfl⟩, _, ⟨?_, rfl⟩, by simp⟩
    simpa using hb'

theorem mem_awsKey_iff : m' ∈ SecretKind.awsKey.pattern.matchesAt ⟨b, x, g⟩ ↔
    atWordBoundary ⟨b, x, g⟩ = true ∧ ∃ t v, x = t ++ v ∧ AwsText t ∧
      atWordBoundary ⟨t.reverse ++ b, v, g⟩ = true ∧ m' = ⟨t.reverse ++ b, v, g⟩ := by
  unfold SecretKind.pattern
  simp only [mem_cat_cons_iff, mem_cat_nil_iff, mem_wordB_iff]
  constructor
  · rintro ⟨m₀, ⟨hb, rfl⟩, m₁, h₁, m₂, h₂, m₃, ⟨hb', rfl⟩, rfl⟩
    obtain ⟨v, rfl, rfl⟩ := mem_lit_iff.mp h₁
    obtain ⟨run, v, rfl, hlen, hrun, rfl⟩ := mem_exactly_cls_iff.mp h₂
    have hshape : run.reverse ++ ("AKIA".toList.reverse ++ b) = ("AKIA".toList ++ run).reverse ++ b := by
      rw [List.reverse_append, List.append_assoc]
    rw [hshape] at hb' ⊢
    exact ⟨hb, "AKIA".toList ++ run, v, by rw [List.append_assoc], ⟨run, rfl, hlen, hrun⟩, hb', rfl⟩
  · rintro ⟨hb, t, v, rfl, ⟨run, rfl, hlen, hrun⟩, hb', rfl⟩
    rw [List.reverse_append, List.append_assoc] at hb' ⊢
    exact ⟨_, ⟨hb, rfl⟩, _, mem_lit_iff.mpr ⟨run ++ v, by simp, rfl⟩, _,
      mem_exactly_cls_iff.mpr ⟨run, v, rfl, hlen, hrun, rfl⟩, _, ⟨hb', rfl⟩, by rw [List.append_assoc]⟩

theorem mem_assignmentName_iff :
    m' ∈ (anyOf [cat [ilit "api", opt (oneOf "_-"), ilit "key"], ilit "password", ilit "secret", ilit "token",
      ilit "authorization"]).matchesAt ⟨b, x, g⟩ ↔
    ∃ t v, x = t ++ v ∧ AssignmentName t ∧ m' = ⟨t.reverse ++ b, v, g⟩ := by
  rw [mem_anyOf_iff]
  simp only [List.mem_cons, List.not_mem_nil, or_false, exists_eq_or_imp, exists_eq_left, mem_cat_cons_iff,
    mem_cat_nil_iff, mem_opt_iff]
  constructor
  · rintro (⟨m₁, h₁, m₂, h₂, m₃, h₃, rfl⟩ | h)
    · obtain ⟨a, v, rfl, ha, rfl⟩ := mem_ilit_iff.mp h₁
      rcases h₂ with h₂ | rfl
      · obtain ⟨c, v, rfl, hc, rfl⟩ := mem_cls_iff.mp h₂
        obtain ⟨k, v, rfl, hk, rfl⟩ := mem_ilit_iff.mp h₃
        exact ⟨a ++ ([c] ++ k), v, by simp, .inl ⟨a, [c], k, rfl, ha, .inr ⟨c, hc, rfl⟩, hk⟩, by simp⟩
      · obtain ⟨k, v, rfl, hk, rfl⟩ := mem_ilit_iff.mp h₃
        exact ⟨a ++ ([] ++ k), v, by simp, .inl ⟨a, [], k, rfl, ha, .inl rfl, hk⟩, by simp⟩
    · have hword : ∃ u ∈ ["password", "secret", "token", "authorization"], m' ∈ (ilit u).matchesAt ⟨b, x, g⟩ := by
        simpa using h
      obtain ⟨u, hu, h⟩ := hword
      obtain ⟨w, v, rfl, hw, rfl⟩ := mem_ilit_iff.mp h
      exact ⟨w, v, rfl, .inr ⟨u, hu, hw⟩, rfl⟩
  · rintro ⟨t, v, rfl, ⟨a, sep, k, rfl, ha, hsep, hk⟩ | ⟨u, hu, hw⟩, rfl⟩
    · refine .inl ⟨_, mem_ilit_iff.mpr ⟨a, sep ++ (k ++ v), by simp, ha, rfl⟩, ⟨sep.reverse ++ (a.reverse ++ b), k ++ v, g⟩, ?_, _,
        mem_ilit_iff.mpr ⟨k, v, rfl, hk, rfl⟩, by simp⟩
      rcases hsep with rfl | ⟨c, hc, rfl⟩
      · exact .inr rfl
      · exact .inl (mem_cls_iff.mpr ⟨c, k ++ v, rfl, hc, rfl⟩)
    · refine .inr ?_
      have hword : ∃ u ∈ ["password", "secret", "token", "authorization"],
          (⟨t.reverse ++ b, v, g⟩ : Cursor) ∈ (ilit u).matchesAt ⟨b, t ++ v, g⟩ :=
        ⟨u, hu, mem_ilit_iff.mpr ⟨t, v, rfl, hw, rfl⟩⟩
      simpa using hword

theorem mem_assignment_iff : m' ∈ SecretKind.assignment.pattern.matchesAt ⟨b, x, g⟩ ↔
    ∃ name sign value v, x = name ++ (sign ++ (value ++ v)) ∧ AssignmentName name ∧ AssignmentSign sign ∧
      AssignmentValue value ∧
      m' = ⟨value.reverse ++ (sign.reverse ++ (name.reverse ++ b)), v, (2, sign) :: (1, name) :: g⟩ := by
  unfold SecretKind.pattern
  simp only [mem_cat_cons_iff, mem_cat_nil_iff, mem_grp_iff]
  constructor
  · rintro ⟨m₁, ⟨n₁, h₁, rfl⟩, m₂, ⟨n₂, ⟨k₁, hk₁, k₂, hk₂, k₃, hk₃, rfl⟩, rfl⟩, m₃, h₃, rfl⟩
    obtain ⟨name, v, rfl, hname, rfl⟩ := mem_assignmentName_iff.mp h₁
    obtain ⟨sp, v, rfl, hsp, rfl⟩ := mem_star_cls_iff.mp hk₁
    obtain ⟨c, v, rfl, hc, rfl⟩ := mem_cls_iff.mp hk₂
    obtain ⟨sp', v, rfl, hsp', rfl⟩ := mem_star_cls_iff.mp hk₃
    obtain ⟨value, v, rfl, hne, hvalue, rfl⟩ := mem_some1_cls_iff.mp h₃
    refine ⟨name, sp ++ (c :: sp'), value, v, by simp, hname, ⟨sp, c, sp', rfl, hsp, hc, hsp'⟩, ⟨hne, hvalue⟩, ?_⟩
    have hsign : sp'.reverse ++ c :: (sp.reverse ++ (name.reverse ++ b)) =
        (sp ++ (c :: sp')).reverse ++ (name.reverse ++ b) := by simp
    unfold Cursor.capture
    dsimp only
    rw [hsign, readTo_append, readTo_append]
  · rintro ⟨name, sign, value, v, rfl, hname, ⟨sp, c, sp', rfl, hsp, hc, hsp'⟩, ⟨hne, hvalue⟩, rfl⟩
    refine ⟨_, ⟨_, mem_assignmentName_iff.mpr ⟨name, _, rfl, hname, rfl⟩, rfl⟩, _,
      ⟨_, ⟨_, mem_star_cls_iff.mpr ⟨sp, c :: (sp' ++ (value ++ v)), by simp, hsp, rfl⟩, _,
        mem_cls_iff.mpr ⟨c, sp' ++ (value ++ v), rfl, hc, rfl⟩, _,
        mem_star_cls_iff.mpr ⟨sp', value ++ v, rfl, hsp', rfl⟩, rfl⟩, rfl⟩, _,
      mem_some1_cls_iff.mpr ⟨value, v, rfl, hne, hvalue, rfl⟩, ?_⟩
    have hsign : sp'.reverse ++ c :: (sp.reverse ++ (name.reverse ++ b)) =
        (sp ++ (c :: sp')).reverse ++ (name.reverse ++ b) := by simp
    unfold Cursor.capture
    dsimp only
    rw [hsign, readTo_append, readTo_append]

theorem mem_scheme_iff : m' ∈ (ilits ["postgres", "mysql", "mongodb", "redis"]).matchesAt ⟨b, x, g⟩ ↔
    ∃ w v, x = w ++ v ∧ SchemeText w ∧ m' = ⟨w.reverse ++ b, v, g⟩ := by
  unfold ilits
  rw [mem_anyOf_iff]
  constructor
  · rintro ⟨r, hr, h⟩
    obtain ⟨u, hu, rfl⟩ := List.mem_map.mp hr
    obtain ⟨w, v, rfl, hw, rfl⟩ := mem_ilit_iff.mp h
    exact ⟨w, v, rfl, ⟨u, hu, hw⟩, rfl⟩
  · rintro ⟨w, v, rfl, ⟨u, hu, hw⟩, rfl⟩
    exact ⟨ilit u, List.mem_map.mpr ⟨u, hu, rfl⟩, mem_ilit_iff.mpr ⟨w, v, rfl, hw, rfl⟩⟩

theorem mem_connection_iff : m' ∈ SecretKind.connection.pattern.matchesAt ⟨b, x, g⟩ ↔
    ∃ t v, x = t ++ v ∧ ConnectionText t ∧ m' = ⟨t.reverse ++ b, v, g⟩ := by
  unfold SecretKind.pattern
  simp only [mem_cat_cons_iff, mem_cat_nil_iff]
  constructor
  · rintro ⟨m₁, h₁, m₂, h₂, m₃, h₃, rfl⟩
    obtain ⟨w, v, rfl, hw, rfl⟩ := mem_scheme_iff.mp h₁
    obtain ⟨v, rfl, rfl⟩ := mem_lit_iff.mp h₂
    obtain ⟨run, v, rfl, hne, hrun, rfl⟩ := mem_some1_cls_iff.mp h₃
    exact ⟨w ++ ("://".toList ++ run), v, by simp, ⟨w, run, rfl, hw, hne, hrun⟩, by simp⟩
  · rintro ⟨t, v, rfl, ⟨w, run, rfl, hw, hne, hrun⟩, rfl⟩
    exact ⟨_, mem_scheme_iff.mpr ⟨w, "://".toList ++ (run ++ v), by simp, hw, rfl⟩, _,
      mem_lit_iff.mpr ⟨run ++ v, rfl, rfl⟩, _, mem_some1_cls_iff.mpr ⟨run, v, rfl, hne, hrun, rfl⟩, by simp⟩

theorem mem_keyLine_iff {mark : String} : m' ∈ (privateKeyLine mark).matchesAt ⟨b, x, g⟩ ↔
    ∃ t v, x = t ++ v ∧ KeyLine mark t ∧ m' = ⟨t.reverse ++ b, v, g⟩ := by
  unfold privateKeyLine lits
  simp only [mem_cat_cons_iff, mem_cat_nil_iff, mem_opt_iff, mem_anyOf_iff]
  constructor
  · rintro ⟨m₁, h₁, m₂, h₂, m₃, h₃, m₄, h₄, rfl⟩
    obtain ⟨v, rfl, rfl⟩ := mem_lit_iff.mp h₁
    obtain ⟨v, rfl, rfl⟩ := mem_lit_iff.mp h₂
    rcases h₃ with ⟨r, hr, h₃⟩ | rfl
    · obtain ⟨u, hu, rfl⟩ := List.mem_map.mp hr
      obtain ⟨v, rfl, rfl⟩ := mem_lit_iff.mp h₃
      obtain ⟨v, rfl, rfl⟩ := mem_lit_iff.mp h₄
      exact ⟨"-----".toList ++ (mark.toList ++ (u.toList ++ " PRIVATE KEY-----".toList)), v, by simp,
        ⟨u.toList, .inr ⟨u, hu, rfl⟩, rfl⟩, by simp⟩
    · obtain ⟨v, rfl, rfl⟩ := mem_lit_iff.mp h₄
      exact ⟨"-----".toList ++ (mark.toList ++ ([] ++ " PRIVATE KEY-----".toList)), v, by simp,
        ⟨[], .inl rfl, rfl⟩, by simp⟩
  · rintro ⟨t, v, rfl, ⟨k, hk, rfl⟩, rfl⟩
    refine ⟨_, mem_lit_iff.mpr ⟨mark.toList ++ (k ++ (" PRIVATE KEY-----".toList ++ v)), by simp, rfl⟩, _,
      mem_lit_iff.mpr ⟨k ++ (" PRIVATE KEY-----".toList ++ v), rfl, rfl⟩,
      ⟨k.reverse ++ (mark.toList.reverse ++ ("-----".toList.reverse ++ b)), " PRIVATE KEY-----".toList ++ v, g⟩, ?_, _,
      mem_lit_iff.mpr ⟨v, rfl, rfl⟩, by simp⟩
    rcases hk with rfl | ⟨u, hu, rfl⟩
    · exact .inr rfl
    · exact .inl ⟨lit u, List.mem_map.mpr ⟨u, hu, rfl⟩, mem_lit_iff.mpr ⟨_, rfl, rfl⟩⟩

theorem mem_privateKey_iff : m' ∈ SecretKind.privateKey.pattern.matchesAt ⟨b, x, g⟩ ↔
    ∃ t v, x = t ++ v ∧ PrivateKeyText t ∧ m' = ⟨t.reverse ++ b, v, g⟩ := by
  unfold SecretKind.pattern
  simp only [mem_cat_cons_iff, mem_cat_nil_iff]
  constructor
  · rintro ⟨m₁, h₁, m₂, h₂, m₃, h₃, rfl⟩
    obtain ⟨s, v, rfl, hs, rfl⟩ := mem_keyLine_iff.mp h₁
    obtain ⟨body, v, rfl, -, rfl⟩ := mem_star_cls_iff.mp h₂
    obtain ⟨e, v, rfl, he, rfl⟩ := mem_keyLine_iff.mp h₃
    exact ⟨s ++ (body ++ e), v, by simp, ⟨s, body, e, rfl, hs, he⟩, by simp⟩
  · rintro ⟨t, v, rfl, ⟨s, body, e, rfl, hs, he⟩, rfl⟩
    exact ⟨_, mem_keyLine_iff.mpr ⟨s, body ++ (e ++ v), by simp, hs, rfl⟩, _,
      mem_star_cls_iff.mpr ⟨body, e ++ v, rfl, fun _ _ => rfl, rfl⟩, _,
      mem_keyLine_iff.mpr ⟨e, v, rfl, he, rfl⟩, by simp⟩

end

end FailureOrchestrator
