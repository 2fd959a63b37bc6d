import FailureOrchestrator.Fingerprint
import FailureOrchestrator.SanitizedEvidence

namespace FailureOrchestrator

/-! ## Labels -/

def allowedLabelKeys : List String :=
  ["status", "technical_status", "workflow_status", "failure_category", "tool_name", "result", "policy_outcome",
    "risk_level", "retry_stop_reason", "retry_reason", "security_category", "security_rule_id", "severity", "action",
    "rule_id", "check", "resume_result", "source", "category", "evidence_status"]

def forbiddenLabelKeys : List String :=
  ["run_id", "commit_sha", "branch", "file_path", "exception_message", "patch", "user_input", "message", "log", "token",
    "secret"]

/-- The entries of a `labels` argument; the value may be `None`. -/
abbrev LabelArgs := List (Str × Option Str)

abbrev LabelMap := List (Str × Str)

/-- The value of a label: unknown if it is empty, too long, or like a path or prose where that is not allowed. -/
def labelValue (k : Str) (raw : Option Str) : Str :=
  let v := raw.getD "unknown".toList
  let v := if v = [] ∨ 64 < v.length then "unknown".toList else v
  if (v.contains '/' || v.contains '\\' || v.contains ' ') &&
      !inSet k ["failure_category", "tool_name", "rule_id", "security_rule_id"] then "unknown".toList
  else v

def sanitizeLabels (labels : LabelArgs) : LabelMap :=
  labels.foldl
    (fun out (k, raw) =>
      if inSet k forbiddenLabelKeys || !inSet k allowedLabelKeys then out else setEntry k (labelValue k raw) out) []

/-- `f"{k}={labels[k]}"` in the order of the names. -/
def labelTexts (labels : LabelMap) : List Str :=
  (sortStrs (labels.map Prod.fst)).map fun k => k ++ '=' :: (labels.lookup k).getD []

/-- `_label_key` -/
def labelKey (labels : LabelMap) : Str := joinWith [','] (labelTexts labels)

/-! ## The recorder -/

/-- A value for every metric and label key. -/
abbrev SeriesTable (α : Type) := List (Str × List (Str × α))

namespace SeriesTable

variable {α : Type}

def series (table : SeriesTable α) (metric key : Str) : Option α := ((table.lookup metric).getD []).lookup key

def update (table : SeriesTable α) (metric key : Str) (f : Option α → α) : SeriesTable α :=
  let bucket := (table.lookup metric).getD []
  setEntry metric (setEntry key (f (bucket.lookup key)) bucket) table

theorem series_update (table : SeriesTable α) (metric key : Str) (f : Option α → α) (metric' key' : Str) :
    (table.update metric key f).series metric' key' =
      if metric' = metric ∧ key' = key then some (f (table.series metric key)) else table.series metric' key' := by
  unfold update series
  by_cases hmetric : metric' = metric
  · subst hmetric
    rw [lookup_setEntry_self, Option.getD_some]
    by_cases hkey : key' = key
    · subst hkey
      rw [lookup_setEntry_self, if_pos ⟨rfl, rfl⟩]
    · rw [lookup_setEntry_ne hkey, if_neg fun h => hkey h.2]
  · rw [lookup_setEntry_ne hmetric, if_neg fun h => hmetric h.1]

end SeriesTable

structure InMemoryMetricsRecorder (F : Type) where
  counters : SeriesTable F := []
  observations : SeriesTable (List F) := []
  gauges : SeriesTable F := []

inductive MetricKind where
  | counter
  | observation
  | gauge

namespace InMemoryMetricsRecorder

variable {F : Type} (r : InMemoryMetricsRecorder F)

def increment [Zero F] [Add F] (metric : Str) (value : F) (labels : LabelArgs) : InMemoryMetricsRecorder F :=
  { r with counters := r.counters.update metric (labelKey (sanitizeLabels labels)) fun old => old.getD 0 + value }

def observe (metric : Str) (value : F) (labels : LabelArgs) : InMemoryMetricsRecorder F :=
  { r with observations := r.observations.update metric (labelKey (sanitizeLabels labels)) fun old =>
      old.getD [] ++ [value] }

def gauge (metric : Str) (value : F) (labels : LabelArgs) : InMemoryMetricsRecorder F :=
  { r with gauges := r.gauges.update metric (labelKey (sanitizeLabels labels)) fun _ => value }

def record [Zero F] [Add F] : MetricKind → Str → F → LabelArgs → InMemoryMetricsRecorder F
  | .counter => r.increment
  | .observation => r.observe
  | .gauge => r.gauge

/-- The values of a series. -/
def series : MetricKind → Str → Str → Option (List F)
  | .counter, metric, key => (r.counters.series metric key).map ([·])
  | .observation, metric, key => r.observations.series metric key
  | .gauge, metric, key => (r.gauges.series metric key).map ([·])

end InMemoryMetricsRecorder

/-- Recording under either label map changes the same series, whatever was recorded before. -/
def SameSeries (F : Type) [Zero F] [Add F] (metric : Str) (labels labels' : LabelArgs) : Prop :=
  ∀ (r : InMemoryMetricsRecorder F) (kind : MetricKind) (value : F) (metric' key : Str),
    (r.record kind metric value labels).series kind metric' key =
      (r.record kind metric value labels').series kind metric' key

theorem sameSeries_iff {F : Type} [Zero F] [Add F] {metric : Str} {labels labels' : LabelArgs} :
    SameSeries F metric labels labels' ↔ labelKey (sanitizeLabels labels) = labelKey (sanitizeLabels labels') := by
  constructor
  · intro h
    by_contra hne
    have hgauge := h {} .gauge 0 metric (labelKey (sanitizeLabels labels))
    simp only [InMemoryMetricsRecorder.record, InMemoryMetricsRecorder.gauge, InMemoryMetricsRecorder.series,
      SeriesTable.series_update] at hgauge
    rw [if_pos ⟨trivial, trivial⟩, if_neg fun h => hne h.2] at hgauge
    cases hgauge
  · intro h r kind value metric' key
    cases kind with
    | counter =>
      simp only [InMemoryMetricsRecorder.record, InMemoryMetricsRecorder.increment]
      rw [h]
    | observation =>
      simp only [InMemoryMetricsRecorder.record, InMemoryMetricsRecorder.observe]
      rw [h]
    | gauge =>
      simp only [InMemoryMetricsRecorder.record, InMemoryMetricsRecorder.gauge]
      rw [h]

/-! ## Where a label can begin -/

/-- The text begins with the name of an allowed label and a `=`. -/
def startsLabel (s : Str) : Bool := s.contains '=' && inSet (beforeFirst '=' s) allowedLabelKeys

/-- Puts a text and a comma in front of the first part. -/
def joinHead (x : Str) : List Str → List Str
  | [] => [x]
  | part :: parts => (x ++ ',' :: part) :: parts

/-- Joins every text between commas that begins no label to the one before it. -/
def regroup : List Str → List Str
  | [] => []
  | [x] => [x]
  | x :: y :: rest => if startsLabel y then x :: regroup (y :: rest) else joinHead x (regroup (y :: rest))

/-- A text, cut at every comma that the beginning of a label follows. -/
def cutLabels (s : Str) : List Str := regroup (splitChar ',' s)

/-- The labels of a map when every value is cut where a label could begin. -/
def labelParts (labels : LabelMap) : List Str := (labelTexts labels).flatMap cutLabels

theorem regroup_ne_nil {xs : List Str} (h : xs ≠ []) : regroup xs ≠ [] := by
  match xs with
  | [x] => simp [regroup]
  | x :: y :: rest =>
    unfold regroup
    split
    · simp
    · cases regroup (y :: rest) <;> simp [joinHead]

theorem joinWith_joinHead (x : Str) {parts : List Str} (h : parts ≠ []) :
    joinWith [','] (joinHead x parts) = x ++ ',' :: joinWith [','] parts := by
  match parts with
  | [part] => rfl
  | part :: part' :: parts => simp [joinHead, joinWith]

theorem joinWith_regroup (xs : List Str) : joinWith [','] (regroup xs) = joinWith [','] xs := by
  match xs with
  | [] | [x] => rfl
  | x :: y :: rest =>
    have ih := joinWith_regroup (y :: rest)
    have hne : regroup (y :: rest) ≠ [] := regroup_ne_nil (List.cons_ne_nil _ _)
    unfold regroup
    split
    · rw [joinWith_cons hne, ih]
      rfl
    · rw [joinWith_joinHead x hne, ih]
      simp [joinWith]

theorem joinWith_splitChar (s : Str) : joinWith [','] (splitChar ',' s) = s := by
  induction s with
  | nil => rfl
  | cons c s ih =>
    have hne : splitChar ',' s ≠ [] := List.splitOn_ne_nil _ _
    rw [splitChar_cons]
    split
    next h => rw [joinWith_cons hne, ih, h]; rfl
    next =>
      obtain ⟨x, xs, hx⟩ := List.exists_cons_of_ne_nil hne
      rw [hx] at ih ⊢
      rw [List.modifyHead_cons, ← ih]
      cases xs <;> rfl

/-- Nothing is lost at the cuts. -/
theorem joinWith_cutLabels (s : Str) : joinWith [','] (cutLabels s) = s := by
  unfold cutLabels
  rw [joinWith_regroup, joinWith_splitChar]

theorem splitChar_append_cons (c : Char) (s t : Str) : splitChar c (s ++ c :: t) = splitChar c s ++ splitChar c t := by
  induction s with
  | nil =>
    rw [List.nil_append, splitChar_cons, if_pos rfl]
    rfl
  | cons d s ih =>
    rw [List.cons_append, splitChar_cons, splitChar_cons, ih]
    split
    · rfl
    · obtain ⟨x, xs, hx⟩ := List.exists_cons_of_ne_nil (List.splitOn_ne_nil c s)
      have hsplit : splitChar c s = x :: xs := hx
      rw [hsplit]
      rfl

theorem regroup_append {xs ys : List Str} (hxs : xs ≠ []) {y : Str} (hy : ys.head? = some y)
    (hstart : startsLabel y = true) : regroup (xs ++ ys) = regroup xs ++ regroup ys := by
  match xs with
  | [x] =>
    obtain ⟨rest, rfl⟩ := List.head?_eq_some_iff.mp hy
    simp [regroup, hstart]
  | x :: x' :: rest =>
    have ih : regroup (x' :: rest ++ ys) = regroup (x' :: rest) ++ regroup ys :=
      regroup_append (List.cons_ne_nil _ _) hy hstart
    obtain ⟨part, parts, hparts⟩ := List.exists_cons_of_ne_nil (regroup_ne_nil (List.cons_ne_nil x' rest))
    rw [List.cons_append] at ih
    simp only [List.cons_append, regroup]
    rw [ih]
    split
    · rfl
    · rw [hparts]
      rfl

theorem allowed_plain {k : Str} (h : inSet k allowedLabelKeys = true) : '=' ∉ k ∧ ',' ∉ k := by
  have hall : ∀ name ∈ allowedLabelKeys, '=' ∉ name.toList ∧ ',' ∉ name.toList := by decide
  obtain ⟨name, hname, heq⟩ := List.any_eq_true.mp h
  rw [← beq_iff_eq.mp heq]
  exact hall name hname

theorem beforeFirst_append_cons {c : Char} {k : Str} (h : c ∉ k) (w : Str) : beforeFirst c (k ++ c :: w) = k := by
  have hne : ∀ d ∈ k, (d != c) = true := fun d hd => bne_iff_ne.mpr fun heq => h (heq ▸ hd)
  unfold beforeFirst
  rw [List.takeWhile_append_of_pos hne]
  simp

theorem startsLabel_iff {s : Str} :
    startsLabel s = true ↔ ∃ k w, inSet k allowedLabelKeys = true ∧ s = k ++ '=' :: w := by
  unfold startsLabel
  rw [Bool.and_eq_true, List.contains_iff_mem]
  constructor
  · rintro ⟨hmem, hallowed⟩
    obtain ⟨k, w, rfl, hk⟩ := List.eq_append_cons_of_mem hmem
    rw [beforeFirst_append_cons hk] at hallowed
    exact ⟨k, w, hallowed, rfl⟩
  · rintro ⟨k, w, hallowed, rfl⟩
    rw [beforeFirst_append_cons (allowed_plain hallowed).1]
    exact ⟨by simp, hallowed⟩

/-- A text that begins a label is cut off from the text before. -/
theorem cutLabels_append (s : Str) {t : Str} (h : startsLabel t = true) :
    cutLabels (s ++ ',' :: t) = cutLabels s ++ cutLabels t := by
  obtain ⟨k, w, hallowed, rfl⟩ := startsLabel_iff.mp h
  have hcomma : ∀ d ∈ k ++ ['='], (d != ',') = true := by
    intro d hd
    rcases List.mem_append.mp hd with hd | hd
    · exact bne_iff_ne.mpr fun heq => (allowed_plain hallowed).2 (heq ▸ hd)
    · rw [List.mem_singleton.mp hd]
      rfl
  have hhead : beforeFirst ',' (k ++ '=' :: w) = k ++ '=' :: beforeFirst ',' w := by
    unfold beforeFirst
    rw [List.append_cons, List.takeWhile_append_of_pos hcomma]
    simp
  have hfirst : (splitChar ',' (k ++ '=' :: w)).head? = some (k ++ '=' :: beforeFirst ',' w) := by
    rw [splitChar_eq_cons, hhead]
    rfl
  unfold cutLabels
  rw [splitChar_append_cons]
  exact regroup_append (List.splitOn_ne_nil _ _) hfirst (startsLabel_iff.mpr ⟨k, _, hallowed, rfl⟩)

/-- The label key of a map gives its parts. -/
theorem cutLabels_joinWith {texts : List Str} (hne : texts ≠ []) (h : ∀ t ∈ texts, startsLabel t = true) :
    cutLabels (joinWith [','] texts) = texts.flatMap cutLabels := by
  match texts with
  | [t] => simp [joinWith]
  | t :: t' :: rest =>
    have ih := cutLabels_joinWith (List.cons_ne_nil t' rest) fun u hu => h u (List.mem_cons_of_mem _ hu)
    have hstart : startsLabel (joinWith [','] (t' :: rest)) = true := by
      obtain ⟨k, w, hallowed, rfl⟩ := startsLabel_iff.mp (h t' (by simp))
      refine startsLabel_iff.mpr ?_
      cases rest with
      | nil => exact ⟨k, w, hallowed, rfl⟩
      | cons u rest => exact ⟨k, w ++ [','] ++ joinWith [','] (u :: rest), hallowed, by simp [joinWith]⟩
    rw [joinWith_cons (List.cons_ne_nil _ _), List.append_assoc, List.singleton_append, cutLabels_append t hstart, ih]
    rfl

theorem mem_foldl_sanitize (labels : LabelArgs) (out : LabelMap)
    (hout : (out.map Prod.fst).Nodup ∧ ∀ k ∈ out.map Prod.fst, inSet k allowedLabelKeys = true) :
    let s := labels.foldl (fun out (k, raw) =>
      if inSet k forbiddenLabelKeys || !inSet k allowedLabelKeys then out else setEntry k (labelValue k raw) out) out
    (s.map Prod.fst).Nodup ∧ ∀ k ∈ s.map Prod.fst, inSet k allowedLabelKeys = true := by
  induction labels generalizing out with
  | nil => exact hout
  | cons e labels ih =>
    obtain ⟨k, raw⟩ := e
    refine ih _ ?_
    dsimp only
    split
    next => exact hout
    next hk =>
      have hallowed : inSet k allowedLabelKeys = true := by
        cases hset : inSet k allowedLabelKeys with
        | true => rfl
        | false => simp [hset] at hk
      refine ⟨nodup_setEntry hout.1, fun k' hk' => ?_⟩
      obtain ⟨e, he, rfl⟩ := List.mem_map.mp hk'
      rcases mem_setEntry he with rfl | he
      · exact hallowed
      · exact hout.2 _ (List.mem_map_of_mem he)

/-- The labels of a sanitized map are allowed ones, each with one value. -/
theorem sanitizeLabels_keys (labels : LabelArgs) : ((sanitizeLabels labels).map Prod.fst).Nodup ∧
    ∀ k ∈ (sanitizeLabels labels).map Prod.fst, inSet k allowedLabelKeys = true :=
  mem_foldl_sanitize labels [] ⟨List.nodup_nil, by simp⟩

theorem labelTexts_start (labels : LabelArgs) : ∀ t ∈ labelTexts (sanitizeLabels labels), startsLabel t = true := by
  intro t ht
  obtain ⟨k, hk, rfl⟩ := List.mem_map.mp ht
  exact startsLabel_iff.mpr ⟨k, _, (sanitizeLabels_keys labels).2 k ((List.mem_insertionSort _).mp hk), rfl⟩

/-- The parts of a map are those of its label key. -/
theorem labelParts_eq {labels : LabelArgs} (h : labelTexts (sanitizeLabels labels) ≠ []) :
    labelParts (sanitizeLabels labels) = cutLabels (labelKey (sanitizeLabels labels)) :=
  (cutLabels_joinWith h (labelTexts_start labels)).symm

theorem joinWith_labelParts (labels : LabelArgs) :
    joinWith [','] (labelParts (sanitizeLabels labels)) = labelKey (sanitizeLabels labels) := by
  by_cases h : labelTexts (sanitizeLabels labels) = []
  · unfold labelParts labelKey
    rw [h]
    rfl
  · rw [labelParts_eq h, joinWith_cutLabels]

theorem labelParts_nil {labels : LabelArgs} (h : labelKey (sanitizeLabels labels) = []) :
    labelParts (sanitizeLabels labels) = [] := by
  cases htexts : labelTexts (sanitizeLabels labels) with
  | nil =>
    unfold labelParts
    rw [htexts]
    rfl
  | cons t rest =>
    obtain ⟨k, w, -, rfl⟩ := startsLabel_iff.mp (labelTexts_start labels t (by simp [htexts]))
    unfold labelKey at h
    rw [htexts] at h
    cases rest <;> simp [joinWith] at h

/-- Two sanitized maps have the same key exactly if they have the same parts. -/
theorem labelKey_eq_iff (labels labels' : LabelArgs) :
    labelKey (sanitizeLabels labels) = labelKey (sanitizeLabels labels') ↔
      labelParts (sanitizeLabels labels) = labelParts (sanitizeLabels labels') := by
  constructor
  · intro h
    by_cases hkey : labelKey (sanitizeLabels labels) = []
    · rw [labelParts_nil hkey, labelParts_nil (h ▸ hkey)]
    · have htexts : ∀ {ls : LabelArgs}, labelKey (sanitizeLabels ls) ≠ [] → labelTexts (sanitizeLabels ls) ≠ [] := by
        intro ls hls hnil
        unfold labelKey at hls
        exact hls (by rw [hnil]; rfl)
      rw [labelParts_eq (htexts hkey), labelParts_eq (htexts (h ▸ hkey)), h]
  · intro h
    rw [← joinWith_labelParts labels, h, joinWith_labelParts]

/-! ## Series -/

/-- The same dict. -/
def SameMap (s s' : LabelMap) : Prop := ∀ k, s.lookup k = s'.lookup k

theorem SameMap.labelTexts {s s' : LabelMap} (h : SameMap s s') (hs : (s.map Prod.fst).Nodup)
    (hs' : (s'.map Prod.fst).Nodup) : labelTexts s = labelTexts s' := by
  have hmem : ∀ (d : LabelMap) k, k ∈ d.map Prod.fst ↔ (d.lookup k).isSome = true := by
    intro d k
    simp [List.lookup_isSome_iff]
  have hperm : (s.map Prod.fst).Perm (s'.map Prod.fst) :=
    (List.perm_ext_iff_of_nodup hs hs').mpr fun k => by rw [hmem, hmem, h k]
  have hsort : sortStrs (s.map Prod.fst) = sortStrs (s'.map Prod.fst) := by
    refine List.Perm.eq_of_pairwise (fun a b _ _ hab hba => List.le_antisymm hab hba)
      (List.pairwise_insertionSort _ _) (List.pairwise_insertionSort _ _) ?_
    exact (List.perm_insertionSort _ _).trans (hperm.trans (List.perm_insertionSort _ _).symm)
  unfold FailureOrchestrator.labelTexts
  rw [hsort]
  exact List.map_congr_left fun k _ => by rw [h k]

/-- The maps share a series exactly if they are equal, unless they only differ in where values are cut into labels. -/
theorem sameSeries_sameMap_iff {F : Type} [Zero F] [Add F] (metric : Str) (labels labels' : LabelArgs) :
    (SameSeries F metric labels labels' ↔ SameMap (sanitizeLabels labels) (sanitizeLabels labels')) ↔
      (SameMap (sanitizeLabels labels) (sanitizeLabels labels') ∨
        labelParts (sanitizeLabels labels) ≠ labelParts (sanitizeLabels labels')) := by
  have hsame : SameMap (sanitizeLabels labels) (sanitizeLabels labels') → SameSeries F metric labels labels' := by
    intro h
    unfold SameMap at h
    rw [sameSeries_iff]
    unfold labelKey
    rw [SameMap.labelTexts h (sanitizeLabels_keys labels).1 (sanitizeLabels_keys labels').1]
  constructor
  · intro h
    by_cases hmap : SameMap (sanitizeLabels labels) (sanitizeLabels labels')
    · exact .inl hmap
    · refine .inr fun hparts => hmap (h.mp ?_)
      rw [sameSeries_iff, labelKey_eq_iff]
      exact hparts
  · rintro (hmap | hparts)
    · exact ⟨fun _ => hmap, hsame⟩
    · refine ⟨fun hseries => ?_, hsame⟩
      rw [sameSeries_iff, labelKey_eq_iff] at hseries
      exact absurd hseries hparts

/-- A rule id that goes on like a status and a rule id with that status share a series. -/
theorem mergedSeries_shared :
    let merged : LabelArgs := [("rule_id".toList, some "no-eval,status=open".toList)]
    let apart : LabelArgs := [("rule_id".toList, some "no-eval".toList), ("status".toList, some "open".toList)]
    SameSeries Int "security_findings".toList merged apart ∧ ¬ SameMap (sanitizeLabels merged) (sanitizeLabels apart) ∧
    ¬ (SameSeries Int "security_findings".toList merged apart ↔
      SameMap (sanitizeLabels merged) (sanitizeLabels apart)) := by
  intro merged apart
  have hseries : SameSeries Int "security_findings".toList merged apart := sameSeries_iff.mpr (by decide +kernel)
  have hmap : ¬ SameMap (sanitizeLabels merged) (sanitizeLabels apart) := fun h => by
    have hstatus := h "status".toList
    revert hstatus
    decide +kernel
  exact ⟨hseries, hmap, fun h => hmap (h.mp hseries)⟩

end FailureOrchestrator
