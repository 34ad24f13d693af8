import Mathlib.Algebra.Order.BigOperators.Group.List
import Mathlib.Algebra.Order.Group.Nat
import Seashell.Assoc
import Seashell.Proofs.Documents.Reports
import Seashell.Proofs.Documents.Yaml.Reading
import Seashell.Proofs.Inventory
import Seashell.Proofs.Lines
import Seashell.Report.Document

set_option autoImplicit false

/-! # Reports and traces of scripts as YAML

What the analysis of a script finds is read back from YAML, as the writer and the reader of this
library have it. The names of fields and rules stand as keys without quotes (`Yaml.IsKey`), and no
count or line number is larger than the script is long (`Report.natAbs_le_of_mem_integers`), so that
none of them has too many digits to be read. The rest is said of any portable value in
`Seashell.Proofs.Documents.Yaml.Reading`.

Both for reports and for the records of traces, what is read back is the same (`ofYaml_toYaml`), and
nothing else could have been written for it, which `yaml_lossless` puts together. -/

namespace Seashell

open Text

/-! ## Counts -/

theorem Text.length_readLines_le (s : Text) :
    (readLines s).length ≤ s.length ∧ ((readLines s).map (·.length)).sum ≤ s.length := by
  fun_induction readLines s with
  | case1 => exact ⟨Nat.le_refl _, Nat.le_refl _⟩
  | case2 s ih =>
    simp only [List.length_cons, List.map_cons, List.sum_cons, List.length_nil]
    omega
  | case3 c s hreturn hbreak ih =>
    simp only [List.length_cons, List.map_cons, List.sum_cons, List.length_nil]
    omega
  | case4 c s hreturn hbreak hlines ih => simp
  | case5 c s hreturn hbreak line lines hlines ih =>
    rw [hlines] at ih
    simp only [List.length_cons, List.map_cons, List.sum_cons] at ih ⊢
    omega

theorem LineStep.length_cleanLine (raw : Text) : (cleanLine raw).length ≤ raw.length := by
  have hdrop : (raw.reverse.dropWhile (· == '\n')).length ≤ raw.reverse.length :=
    (List.dropWhile_sublist _).length_le
  refine Nat.le_trans (List.length_filter_le _ _) ?_
  rwa [List.length_reverse] at hdrop ⊢

theorem LineStep.sum_length_cleanLine_le (lines : List Text) :
    ((lines.map cleanLine).map (·.length)).sum ≤ (lines.map (·.length)).sum := by
  rw [List.map_map]
  exact List.sum_le_sum fun line _ => length_cleanLine line

/-- `splitLines` gives no more lines than there are characters, and no more characters in the
    lines. -/
theorem Text.length_splitLines_le (s : Text) :
    (splitLines s).length ≤ s.length ∧ ((splitLines s).map (·.length)).sum ≤ s.length := by
  obtain ⟨hcount, hsize⟩ := length_readLines_le s
  have hclean := LineStep.sum_length_cleanLine_le (readLines s)
  rw [← map_cleanLine_readLines, List.length_map]
  omega

theorem Substitution.length_commands (s : Text) : (commands s).length ≤ s.length := by
  have hpieces : (pieces s).length ≤ s.length := by
    fun_induction pieces s with
    | case1 => exact Nat.le_refl _
    | case2 c cs command rest h ih =>
      have := length_lt_of_backtick? h
      simp only [List.length_cons] at this ⊢
      omega
    | case3 c cs h ih =>
      simp only [List.length_cons]
      omega
  exact Nat.le_trans (List.length_filterMap_le _ _) hpieces

namespace Trace

theorem number_of_mem {number : Nat} {block : Block} {lines : List Text} {r : LineRecord}
    (h : r ∈ (ofLinesFrom number block lines).records) : r.number.natAbs < number + lines.length := by
  induction lines generalizing number block with
  | nil => exact absurd h List.not_mem_nil
  | cons raw rest ih =>
    rw [List.length_cons]
    obtain rfl | h := List.mem_cons.1 h
    · rw [(LineStep.record_ofRaw number block raw).1, Int.natAbs_natCast]
      omega
    · have := ih h
      omega

end Trace

theorem TextMap.mem_place {α : Type} {key : Text} {value : α} {x : Text × α} {es : List (Text × α)}
    (h : x ∈ place key value es) : x = (key, value) ∨ x ∈ es := by
  induction es with
  | nil => exact .inl (List.mem_singleton.1 h)
  | cons e es ih =>
    rw [place] at h
    split at h
    · exact List.mem_cons.1 h
    · split at h
      · exact (List.mem_cons.1 h).imp_right (List.mem_cons_of_mem e)
      · obtain rfl | h := List.mem_cons.1 h
        · exact .inr List.mem_cons_self
        · exact (ih h).imp_right (List.mem_cons_of_mem e)

theorem TextMap.mem_of_get? {α : Type} {m : TextMap α} {key : Text} {value : α}
    (h : m.get? key = some value) : (key, value) ∈ m.entries :=
  Assoc.mem_of_lookup h

namespace Report

theorem countRules_entries (rules : List Rule) :
    ∀ e ∈ (countRules rules).entries, (∃ r : Rule, e.1 = r.name) ∧ 0 ≤ e.2 ∧ e.2 ≤ rules.length := by
  -- the fold is followed from any map on whose counts are known
  have hfold : ∀ (m : TextMap Int) (n : Nat),
      (∀ e ∈ m.entries, (∃ r : Rule, e.1 = r.name) ∧ 0 ≤ e.2 ∧ e.2 ≤ n) →
      ∀ e ∈ (rules.foldl (fun m r => m.insert r.name ((m.get? r.name).getD 0 + 1)) m).entries,
        (∃ r : Rule, e.1 = r.name) ∧ 0 ≤ e.2 ∧ e.2 ≤ n + rules.length := by
    induction rules with
    | nil => simp
    | cons s rules ih =>
      intro m n hm e he
      have hcount : 0 ≤ (m.get? s.name).getD 0 ∧ (m.get? s.name).getD 0 ≤ n := by
        cases hget : m.get? s.name with
        | none => simp
        | some v => exact (hm _ (TextMap.mem_of_get? hget)).2
      have hstep := ih (m.insert s.name ((m.get? s.name).getD 0 + 1)) (n + 1) (fun x hx => ?_) e he
      · rw [List.length_cons]
        obtain ⟨hname, hlow, hhigh⟩ := hstep
        exact ⟨hname, hlow, by omega⟩
      · obtain rfl | hx := TextMap.mem_place hx
        · exact ⟨⟨s, rfl⟩, by dsimp only; omega, by dsimp only; omega⟩
        · obtain ⟨hname, hlow, hhigh⟩ := hm x hx
          exact ⟨hname, hlow, by omega⟩
  simpa [countRules] using hfold .empty 0 (by simp [TextMap.empty])

/-- The counts of lines in the report `r`. -/
def lineCounts (r : Report) : List Int :=
  [r.totalLines, r.blankLines, r.convertedLines, r.unchangedLines, r.suppressedLines, r.dynamicGotos]

/-- The integers of the report `r`. -/
def integers (r : Report) : List Int :=
  r.backtickSubstitutions :: (r.lineCounts ++ r.ruleUsage.entries.map (·.2) ++ r.compoundConditionLines
    ++ r.unconvertedControlFlowLines)

theorem isWritable_toValue {r : Report} (h : ∀ n ∈ r.integers, n.natAbs < digitBound) :
    r.toValue.isWritable = true := by
  have hint : ∀ n ∈ r.integers, (Value.int n).isWritable = true := fun n hn => by
    rw [Value.isWritable, decide_eq_true_eq]
    exact h n hn
  simp only [integers, lineCounts, List.forall_mem_append, List.forall_mem_cons] at hint
  obtain ⟨hbackticks, ⟨⟨⟨htotal, hblank, hconverted, hunchanged, hsuppressed, hdynamic, _⟩, husage⟩,
    hcompound⟩, hunconverted⟩ := hint
  have hrules : (Value.record (r.ruleUsage.entries.map fun e => (e.1, .int e.2))).isWritable = true := by
    rw [Value.record_eq, Value.isWritable, Value.entriesWritable_eq_all, List.all_map]
    simp only [List.all_eq_true, Function.comp_apply]
    exact fun e he => husage e.2 (List.mem_map_of_mem he)
  rw [toValue, Value.record_eq, Value.isWritable, Value.entriesWritable_eq_all]
  simp only [List.all_cons, List.all_nil, htotal, hblank, hconverted, hunchanged, hsuppressed, hdynamic,
    hbackticks, Value.isWritable_ints hcompound, Value.isWritable_ints hunconverted,
    Value.isWritable_texts, hrules, Bool.and_true]
  rfl

theorem length_backticks (records : List LineRecord) :
    ((records.filter (·.isRuled)).flatMap fun r => Substitution.commands r.body).length
      ≤ ((records.map (·.source)).map (·.length)).sum := by
  induction records with
  | nil => exact Nat.le_refl _
  | cons r records ih =>
    have hbody : r.body.length ≤ r.source.length := (List.dropWhile_sublist _).length_le
    have hcommands := Substitution.length_commands r.body
    rw [List.filter_cons, List.map_cons, List.map_cons, List.sum_cons]
    split
    · rw [List.flatMap_cons, List.length_append]
      omega
    · omega

theorem natAbs_le_of_mem_lineCounts (name : Text) (t : Trace) :
    ∀ n ∈ (ofTrace name t).lineCounts, n.natAbs ≤ t.records.length := by
  have hruled := List.length_filter_le (·.isRuled) t.records
  have hwritten := List.length_filter_le (!·.output.isEmpty) (t.records.filter (·.isRuled))
  have htargets := List.length_filterMap_le (·.target?) t.records
  simp only [lineCounts, List.forall_mem_cons, ofTrace, Int.natAbs_natCast]
  refine ⟨Nat.le_refl _, List.countP_le_length, ?_, ?_, ?_, ?_, by simp⟩
  · exact Nat.le_trans List.countP_le_length (Nat.le_trans hwritten hruled)
  · exact Nat.le_trans List.countP_le_length (Nat.le_trans hwritten hruled)
  · exact Nat.le_trans List.countP_le_length hruled
  · exact Nat.le_trans List.countP_le_length htargets

/-- No number in the report of a script is larger than the script is long: all `integers` are counts
    or line numbers. -/
theorem natAbs_le_of_mem_integers (name : Text) {script : Text} {n : Int}
    (h : n ∈ (ofScript name script).integers) : n.natAbs ≤ script.length := by
  obtain ⟨hlines, hchars⟩ := length_splitLines_le script
  have hrecords : (Trace.ofLines .closed (splitLines script)).records.length = (splitLines script).length :=
    Trace.length_records _ _ _
  have hnumber : ∀ r ∈ (Trace.ofLines .closed (splitLines script)).records,
      r.number.natAbs ≤ script.length := by
    intro r hr
    have := Trace.number_of_mem hr
    omega
  obtain rfl | h := List.mem_cons.1 h
  · have hbackticks := length_backticks (Trace.ofLines .closed (splitLines script)).records
    rw [Trace.ofLines, Trace.source_records] at hbackticks
    exact Nat.le_trans hbackticks (Nat.le_trans (LineStep.sum_length_cleanLine_le _) hchars)
  simp only [List.mem_append] at h
  obtain ((hcount | husage) | hline) | hline := h
  · have := natAbs_le_of_mem_lineCounts name _ n hcount
    omega
  · obtain ⟨e, he, rfl⟩ := List.mem_map.1 husage
    obtain ⟨_, hlow, hhigh⟩ := countRules_entries _ e he
    have := List.length_filterMap_le (·.rule?) (Trace.ofLines .closed (splitLines script)).records
    omega
  · obtain ⟨r, hr, rfl⟩ := List.mem_map.1 hline
    exact hnumber r (List.mem_of_mem_filter hr)
  · obtain ⟨r, hr, rfl⟩ := List.mem_map.1 hline
    exact hnumber r (List.mem_of_mem_filter hr)

theorem isWritable_ofScript (name : Text) {script : Text} (hsize : script.length < digitBound) :
    (ofScript name script).toValue.isWritable = true :=
  isWritable_toValue fun _ hn => Nat.lt_of_le_of_lt (natAbs_le_of_mem_integers name hn) hsize

end Report

/-! ## As YAML -/

theorem Rule.isKey_name (r : Rule) : Yaml.IsKey r.name := by
  cases r <;> decide

theorem Category.name_injective {c d : Category} (h : c.name = d.name) : c = d := by
  have hother : ∀ r : Rule, r.name ≠ "source_header" ∧ r.name ≠ "blank" := by
    intro r
    cases r <;> decide
  cases c with
  | interpreter =>
    cases d with
    | interpreter => rfl
    | blank => exact absurd h (by decide)
    | rule r => exact absurd h.symm (hother r).1
  | blank =>
    cases d with
    | interpreter => exact absurd h (by decide)
    | blank => rfl
    | rule r => exact absurd h.symm (hother r).2
  | rule r =>
    cases d with
    | interpreter => exact absurd h (hother r).1
    | blank => exact absurd h (hother r).2
    | rule s => exact congrArg Category.rule (Rule.name_injective h)

namespace Report

theorem isKey_fieldNames : ∀ k ∈ fieldNames, Yaml.IsKey k := by decide

/-- The report of a script is read back from `toYaml`. -/
theorem ofYaml_toYaml (name : Text) {script : Text} (hsize : script.length < digitBound) :
    ReportDocument.ofYaml (ofScript name script).toYaml = .ok (.ofReport (ofScript name script)) := by
  have hportable : (ofScript name script).toValue.Portable Yaml.IsKey 2 := by
    refine portable_toValue _ isKey_fieldNames fun e he => ?_
    obtain ⟨⟨r, hr⟩, _⟩ := countRules_entries _ e he
    rw [hr]
    exact r.isKey_name
  have hparse : Yaml.parse (ofScript name script).toYaml = .ok (ofScript name script).toValue :=
    Yaml.parse_render hportable rfl (by decide) (isWritable_ofScript name hsize)
  rw [ReportDocument.ofYaml, hparse]
  exact congrArg (Except.mapError ReadFault.mismatch) (ReportDocument.ofValue_toValue _)

end Report

namespace RecordDocument

/-- The record `r` as a reader sees it. -/
def ofRecord (r : LineRecord) : RecordDocument where
  number := .int r.number
  source := .text r.source
  category := .text r.category.name
  output := r.output.map .text

/-- Reads the records of a trace from YAML, by `Yaml.parse`. -/
def ofYaml (s : Text) : Except ReadFault (List RecordDocument) := do
  let v ← (Yaml.parse s).mapError .yaml
  let items ← v.toItems.mapError .mismatch
  (items.mapM ofValue).mapError .mismatch

theorem ofValue_toValue (r : LineRecord) : ofValue r.toValue = .ok (ofRecord r) := rfl

/-- Different records are different to a reader: `ofRecord` loses nothing. -/
theorem ofRecord_injective {r s : LineRecord} (h : ofRecord r = ofRecord s) : r = s := by
  have htext : ∀ t u : Text, Value.text t = .text u → t = u := fun t u => Value.text.inj
  simp only [ofRecord, mk.injEq, Value.int.injEq, Value.text.injEq, List.map_inj_right htext] at h
  obtain ⟨hnumber, hsource, hcategory, houtput⟩ := h
  cases r
  cases s
  rw [LineRecord.mk.injEq]
  exact ⟨hnumber, hsource, Category.name_injective hcategory, houtput⟩

theorem portable_toValue (r : LineRecord) : r.toValue.Portable Yaml.IsKey 2 := by
  have hkeys : ∀ k ∈ ["line".toList, "source".toList, "category".toList, "output".toList],
      Yaml.IsKey k := by decide
  refine .record (fun e he => hkeys e.1 (List.mem_map_of_mem (f := Prod.fst) he)) (by simp) ?_
  simp only [List.forall_mem_cons]
  exact ⟨.int _, .text _, .text _, .texts _ _ _, by simp⟩

theorem isWritable_toValue {r : LineRecord} (h : r.number.natAbs < digitBound) :
    r.toValue.isWritable = true := by
  have hnumber : (Value.int r.number).isWritable = true := by rwa [Value.isWritable, decide_eq_true_eq]
  rw [LineRecord.toValue, Value.record_eq, Value.isWritable, Value.entriesWritable_eq_all]
  simp only [List.all_cons, List.all_nil, hnumber, Value.isWritable_texts, Bool.and_true]
  rfl

theorem mapM_ofValue (records : List LineRecord) :
    (records.map LineRecord.toValue).mapM ofValue = .ok (records.map ofRecord) := by
  induction records with
  | nil => rfl
  | cons r records ih =>
    rw [List.map_cons, List.mapM_cons, ofValue_toValue, ih]
    rfl

/-- The records of the trace of a script are read back from `Trace.toYaml`. -/
theorem ofYaml_toYaml {script : Text} (hsize : script.length < digitBound) :
    ofYaml (Trace.ofLines .closed (splitLines script)).toYaml
      = .ok ((Trace.ofLines .closed (splitLines script)).records.map ofRecord) := by
  have hlines := (length_splitLines_le script).1
  have hportable : (Value.list ((Trace.ofLines .closed (splitLines script)).records.map
      LineRecord.toValue)).Portable Yaml.IsKey 3 := by
    refine .list fun v hv => ?_
    obtain ⟨r, _, rfl⟩ := List.mem_map.1 hv
    exact portable_toValue r
  have hwritable : (Value.list ((Trace.ofLines .closed (splitLines script)).records.map
      LineRecord.toValue)).isWritable = true := by
    rw [Value.isWritable, Value.itemsWritable_eq_all, List.all_eq_true]
    intro v hv
    obtain ⟨r, hr, rfl⟩ := List.mem_map.1 hv
    have hnumber := Trace.number_of_mem hr
    exact isWritable_toValue (by omega)
  have hparse : Yaml.parse (Trace.ofLines .closed (splitLines script)).toYaml
      = .ok (.list ((Trace.ofLines .closed (splitLines script)).records.map LineRecord.toValue)) :=
    Yaml.parse_render hportable rfl (by decide) hwritable
  rw [ofYaml, hparse]
  exact congrArg (Except.mapError ReadFault.mismatch) (mapM_ofValue _)

end RecordDocument

/-- **`Yaml.parse` undoes `Yaml.render` on what scripts give.** What `ReportDocument.ofYaml` reads
    from `Report.toYaml` is that report and no other, and what `RecordDocument.ofYaml` reads from
    `Trace.toYaml` are the records of that trace and no others. The script may not be so long that
    the number of a line has more digits than `digitBound` allows; no machine holds a script of that
    length. -/
theorem yaml_lossless (name script : Text) (hsize : script.length < digitBound) :
    (∀ r : Report, ReportDocument.ofYaml (Report.ofScript name script).toYaml = .ok (.ofReport r) ↔
      r = Report.ofScript name script) ∧
    ∀ records : List LineRecord,
      RecordDocument.ofYaml (Trace.ofLines .closed (splitLines script)).toYaml = .ok (records.map .ofRecord) ↔
        records = (Trace.ofLines .closed (splitLines script)).records := by
  rw [Report.ofYaml_toYaml name hsize, RecordDocument.ofYaml_toYaml hsize]
  refine ⟨fun r => ⟨fun h => ?_, fun h => by rw [h]⟩, fun records => ⟨fun h => ?_, fun h => by rw [h]⟩⟩
  · exact (ReportDocument.ofReport_injective (Except.ok.inj h)).symm
  · exact (List.map_inj_right fun r s => RecordDocument.ofRecord_injective).1 (Except.ok.inj h).symm

end Seashell
