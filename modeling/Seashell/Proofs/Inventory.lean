import Mathlib.Algebra.Order.Ring.Int
import Seashell.Proofs.Functions
import Seashell.Script

set_option autoImplicit false

/-! # The inventory of a script

The counts of a `Report` account for every line of the script, and the length of the converted
script follows from them. Each line falls under one `Category`, which says how many lines are
written for it (`Category.outputSize`), and only a label writes more, once a function is open.

`LineStep.length_output` says so of one line and `Trace.length_output` of a run, by the general
`Trace.countP_output` for the lines of a kind, which also counts the blank ones.
`openedBefore` counts the labels that find a function open: all of a run but the first.
`LineRecord.sum_outputSize_add_count` turns the sum over the records into counts of lines, and the
lemmas on `Report.ofTrace` say which field of a report each count is. `counts_account_for_lines`
puts them together. -/

namespace Seashell

open Text

/-! ## Maps of counts -/

namespace TextMap

variable {α : Type}

theorem lookup_cons_eq_ite (key k : Text) (v : α) (es : List (Text × α)) :
    ((k, v) :: es).lookup key = if key = k then some v else es.lookup key := by
  by_cases h : key = k
  · simp [h]
  · simp [List.lookup_cons, beq_eq_false_iff_ne.2 h, h]

theorem lookup_place (key other : Text) (value : α) (es : List (Text × α)) :
    (place key value es).lookup other = if other = key then some value else es.lookup other := by
  induction es with
  | nil => exact lookup_cons_eq_ite other key value []
  | cons e es ih =>
    obtain ⟨k, v⟩ := e
    by_cases hlt : key < k
    · rw [place, if_pos hlt, lookup_cons_eq_ite]
    · by_cases hkey : key = k
      · rw [place, if_neg hlt, if_pos hkey]
        simp only [lookup_cons_eq_ite, ← hkey]
        split <;> rfl
      · rw [place, if_neg hlt, if_neg hkey]
        simp only [lookup_cons_eq_ite, ih]
        by_cases hk : other = k
        · have hother : other ≠ key := fun h => hkey (h.symm.trans hk)
          rw [if_pos hk, if_pos hk, if_neg hother]
        · rw [if_neg hk, if_neg hk]

theorem get?_insert (m : TextMap α) (key other : Text) (value : α) :
    (m.insert key value).get? other = if other = key then some value else m.get? other :=
  lookup_place key other value m.entries

/-- The sum of the values of a map, over its `entries`. -/
def total (m : TextMap Int) : Int := (m.entries.map (·.2)).sum

theorem sum_place {key : Text} (value : Int) {es : List (Text × Int)}
    (h : es.Pairwise (·.1 < ·.1)) :
    ((place key value es).map (·.2)).sum = (es.map (·.2)).sum - (es.lookup key).getD 0 + value := by
  induction es with
  | nil => simp [place]
  | cons e es ih =>
    obtain ⟨k, v⟩ := e
    obtain ⟨hhead, htail⟩ := List.pairwise_cons.1 h
    rw [place]
    split
    · rename_i hlt
      -- the keys ascend, so a key before the first one is not among them
      have habsent : ((k, v) :: es).lookup key = none := by
        refine List.lookup_eq_none_iff.2 fun x hx => bne_iff_ne.2 fun heq => ?_
        rcases List.mem_cons.1 hx with rfl | hx
        · exact List.lt_irrefl _ (heq ▸ hlt)
        · exact List.lt_irrefl _ (heq ▸ List.lt_trans hlt (hhead x hx))
      simp only [habsent, List.map_cons, List.sum_cons, Option.getD_none]
      omega
    · split
      · rename_i hkey
        simp only [hkey, List.map_cons, List.sum_cons, List.lookup_cons_self, Option.getD_some]
        omega
      · rename_i hkey
        simp only [List.map_cons, List.sum_cons, ih htail, List.lookup_cons, beq_eq_false_iff_ne.2 hkey]
        omega

theorem total_insert (m : TextMap Int) (key : Text) (value : Int) :
    (m.insert key value).total = m.total - (m.get? key).getD 0 + value :=
  sum_place value m.ascending

end TextMap

theorem Rule.ofName?_name (r : Rule) : ofName? r.name = some r := by
  cases r <;> decide

theorem Rule.name_injective {r s : Rule} (h : r.name = s.name) : r = s := by
  have hname := ofName?_name r
  rw [h, ofName?_name s] at hname
  exact (Option.some.inj hname).symm

namespace Report

/-- `countRules` holds how often each rule occurs, and nothing else. -/
theorem countRules_spec (rules : List Rule) :
    (countRules rules).total = rules.length ∧
      ∀ r : Rule, ((countRules rules).get? r.name).getD 0 = rules.count r := by
  -- the fold is followed from any map on
  have hfold : ∀ m : TextMap Int,
      let counted := rules.foldl (fun m r => m.insert r.name ((m.get? r.name).getD 0 + 1)) m
      counted.total = m.total + rules.length ∧
        ∀ r : Rule, (counted.get? r.name).getD 0 = (m.get? r.name).getD 0 + rules.count r := by
    induction rules with
    | nil => simp
    | cons s rules ih =>
      intro m
      obtain ⟨htotal, hcount⟩ := ih (m.insert s.name ((m.get? s.name).getD 0 + 1))
      refine ⟨?_, fun r => ?_⟩
      · simp only [List.foldl_cons, htotal, TextMap.total_insert, List.length_cons]
        omega
      · simp only [List.foldl_cons, hcount, TextMap.get?_insert, List.count_cons]
        by_cases hr : r = s
        · subst hr
          simp
          omega
        · have hname : r.name ≠ s.name := fun h => hr (Rule.name_injective h)
          simp [hname, Ne.symm hr]
  obtain ⟨htotal, hcount⟩ := hfold .empty
  refine ⟨htotal.trans (Int.zero_add _), fun r => (hcount r).trans (Int.zero_add _)⟩

end Report

/-! ## What a category says -/

/-- How many lines are written for a line of a category, apart from what a label adds to end the
    function before it. -/
def Category.outputSize : Category → Nat
  | .interpreter | .rule .header => 0
  | .rule .goto => 2
  | _ => 1

theorem Statement.length_outputLines {st : Statement} {r : Rule} (hr : r ∈ st.rules) (line : Text)
    (block : Block) :
    (st.outputLines line block).length = (Category.rule r).outputSize +
      if r = .label ∧ block = .opened then 2 else 0 := by
  cases st with
  | label name =>
    obtain rfl : r = .label := by simpa [rules] using hr
    cases block <;> rfl
  | _ =>
    simp only [rules, List.mem_cons, List.not_mem_nil, or_false] at hr
    rcases hr with rfl | rfl | rfl <;> rfl

/-- Each rule but `header`, the one for interpreter lines, writes something. -/
theorem Category.outputSize_eq_zero_iff {r : Rule} :
    (Category.rule r).outputSize = 0 ↔ r = .header := by
  cases r <;> simp [outputSize]

/-- A step writes as many lines as the category of its record says, and two more for a label when a
    function is open. -/
theorem LineStep.length_output (number : Nat) (block : Block) {raw : Text}
    (h : unbroken raw = true) :
    (ofRaw number block raw).record.output.length =
      (ofRaw number block raw).record.category.outputSize +
        if (ofRaw number block raw).record.isLabel ∧ block = .opened then 2 else 0 := by
  rcases ofRaw_cases number block h with ⟨_, hstep⟩ | ⟨_, hstep⟩ | ⟨r, st, _, _, hkind, hstep⟩
  · simp [hstep, Category.outputSize, LineRecord.isLabel]
  · simp [hstep, Category.outputSize, LineRecord.isLabel]
  · simp [hstep, Statement.length_outputLines hkind, LineRecord.isLabel]

theorem LineStep.number_of_interpreter {number : Nat} {block : Block} {raw : Text}
    (h : (ofRaw number block raw).record.category = .interpreter) : number = 1 := by
  simp only [ofRaw] at h
  split at h
  · rename_i htop
    exact htop.1
  · split at h
    · cases h
    · cases h

namespace Trace

/-- Only the first line can be dropped as an `interpreter` line. -/
theorem countP_interpreter (lines : List Text) :
    (ofLines .closed lines).records.countP (·.category = .interpreter) =
      if (ofLines .closed lines).records.any (·.category = .interpreter) then 1 else 0 := by
  cases lines with
  | nil => rfl
  | cons raw rest =>
    have hlater : ∀ r ∈ (ofLinesFrom 2 (LineStep.ofRaw 1 .closed raw).block rest).records,
        ¬ r.category = .interpreter := by
      intro r hr hcategory
      obtain ⟨m, b, raw', hm, _, rfl⟩ := exists_step_of_mem hr
      have := LineStep.number_of_interpreter hcategory
      omega
    have hcount : (ofLinesFrom 2 (LineStep.ofRaw 1 .closed raw).block rest).records.countP
        (·.category = .interpreter) = 0 :=
      List.countP_eq_zero.2 fun r hr => by simpa using hlater r hr
    have hany : (ofLinesFrom 2 (LineStep.ofRaw 1 .closed raw).block rest).records.any
        (·.category = .interpreter) = false :=
      List.any_eq_false.2 fun r hr => by simpa using hlater r hr
    simp only [ofLines, ofLinesFrom_cons, List.countP_cons, List.any_cons, hcount, hany,
      Bool.or_false, Nat.zero_add]

/-- How many of some labels find a function open, from a function block on. -/
def openedBefore : Block → Nat → Nat
  | .closed, labels => labels - 1
  | .opened, labels => labels

/-- The lines of a kind `p` that a run writes, from what a step writes of them: each record has its
    `weight`, and labels add `extra` to it that find a function open. -/
theorem countP_output (p : Text → Bool) (weight : LineRecord → Nat) (extra : Nat)
    (hstep : ∀ number block raw, unbroken raw = true →
      (LineStep.ofRaw number block raw).record.output.countP p =
        weight (LineStep.ofRaw number block raw).record +
          if (LineStep.ofRaw number block raw).record.isLabel ∧ block = .opened then extra else 0)
    {lines : List Text} (number : Nat) (block : Block) (h : ∀ raw ∈ lines, unbroken raw = true) :
    (ofLinesFrom number block lines).output.countP p =
      ((ofLinesFrom number block lines).records.map weight).sum +
        extra * openedBefore block ((ofLinesFrom number block lines).records.countP (·.isLabel)) := by
  induction lines generalizing number block with
  | nil => cases block <;> rfl
  | cons raw rest ih =>
    obtain ⟨hraw, hrest⟩ := List.forall_mem_cons.1 h
    have hfirst := hstep number block raw hraw
    have hlater := ih (number + 1) (LineStep.ofRaw number block raw).block hrest
    simp only [output] at hlater
    simp only [ofLinesFrom_cons, output, List.flatMap_cons, List.countP_append,
      List.map_cons, List.sum_cons, List.countP_cons, hlater, hfirst]
    -- only a label changes the block, and what it adds depends on the block before it
    cases hlabel : (LineStep.ofRaw number block raw).record.isLabel with
    | true =>
      obtain ⟨_, _, _, hopened⟩ := LineStep.ofRaw_label hraw hlabel
      rw [hopened]
      cases block with
      | closed => simp [openedBefore, Nat.add_assoc]
      | opened =>
        simp only [openedBefore, Nat.mul_add_one, true_and, ite_true]
        omega
    | false =>
      rw [LineStep.block_of_not_isLabel hraw hlabel]
      simp [Nat.add_assoc]

/-- The length of what a run writes, from the `outputSize` of its records. -/
theorem length_output {lines : List Text} (number : Nat) (block : Block)
    (h : ∀ raw ∈ lines, unbroken raw = true) :
    (ofLinesFrom number block lines).output.length =
      ((ofLinesFrom number block lines).records.map (·.category.outputSize)).sum +
        2 * openedBefore block ((ofLinesFrom number block lines).records.countP (·.isLabel)) := by
  have hcount := countP_output (fun _ => true) (·.category.outputSize) 2
    (fun number block raw hraw => by
      rw [List.countP_true]
      exact LineStep.length_output number block hraw) number block h
  rwa [List.countP_true] at hcount

/-- The length of a converted script: `convertLines` adds the interpreter line and the end of an
    open function to what the run writes. -/
theorem length_convertLines (settings : Settings) {lines : List Text}
    (h : ∀ raw ∈ lines, unbroken raw = true) :
    (Script.convertLines settings lines).length =
      1 + ((ofLines .closed lines).records.map (·.category.outputSize)).sum +
        2 * ((ofLines .closed lines).records.countP (·.isLabel) - 1) +
        if (ofLines .closed lines).block = .opened then 1 else 0 := by
  have houtput : (ofLines .closed lines).output.length =
      ((ofLines .closed lines).records.map (·.category.outputSize)).sum +
        2 * ((ofLines .closed lines).records.countP (·.isLabel) - 1) := length_output 1 .closed h
  have hfinish : (ofLines .closed lines).block.finish.length =
      if (ofLines .closed lines).block = .opened then 1 else 0 := by
    cases (ofLines .closed lines).block <;> rfl
  simp only [Script.convertLines, List.cons_append, List.length_cons, List.length_append, houtput,
    hfinish]
  omega

end Trace

/-! ## The counts of a report -/

namespace LineRecord

theorem length_eq_countP_not (p : LineRecord → Bool) (records : List LineRecord) :
    records.length = records.countP p + records.countP (!p ·) := by
  rw [List.length_eq_countP_add_countP p]
  simp

/-- Each line that went through the rules (`isRuled`) has its rule. -/
theorem length_filterMap_rule? (records : List LineRecord) :
    (records.filterMap (·.rule?)).length = records.countP (·.isRuled) := by
  induction records with
  | nil => rfl
  | cons r records ih =>
    cases h : r.rule? <;> simp [h, ih, isRuled]

/-- Every line is an `interpreter` line, `blank`, or converted by a rule. -/
theorem length_eq_countP (records : List LineRecord) :
    records.length = records.countP (·.category = .interpreter) +
      records.countP (·.category = .blank) + records.countP (·.isRuled) := by
  induction records with
  | nil => rfl
  | cons r records ih =>
    cases h : r.category <;> simp [h, ih, isRuled, rule?] <;> omega

/-- The sum of all `outputSize`s, from the counts of the lines: a jump writes one line more, an
    interpreter line that a rule finds none. -/
theorem sum_outputSize_add_count (records : List LineRecord) :
    (records.map (·.category.outputSize)).sum + (records.filterMap (·.rule?)).count .header =
      records.countP (·.category = .blank) + records.countP (·.isRuled) +
        (records.filterMap (·.rule?)).count .goto := by
  induction records with
  | nil => rfl
  | cons r records ih =>
    cases h : r.category with
    | interpreter | blank => simp [h, isRuled, rule?, Category.outputSize] at ih ⊢; omega
    | rule rule =>
      cases rule <;>
        simp [h, isRuled, rule?, Category.outputSize] at ih ⊢ <;> omega

/-- The labels of a report are one for each line that is a label (`isLabel`). -/
theorem length_filterMap_label? (records : List LineRecord) :
    (records.filterMap (·.label?)).length = records.countP (·.isLabel) := by
  rw [List.length_filterMap_eq_countP]
  exact List.countP_congr fun r _ => by rw [isSome_label?]

end LineRecord

/-- A line that a rule converted is dropped only by `header`, as an interpreter line. -/
theorem Trace.countP_suppressed {lines : List Text} (h : ∀ raw ∈ lines, unbroken raw = true) :
    ((ofLines .closed lines).records.filter (·.isRuled)).countP (·.output.isEmpty) =
      ((ofLines .closed lines).records.filterMap (·.rule?)).count .header := by
  have hrecord : ∀ r ∈ (ofLines .closed lines).records,
      (r.output.isEmpty && r.isRuled) = true ↔ r.rule? = some .header := by
    intro r hr
    obtain ⟨number, block, raw, _, hraw, rfl⟩ := exists_step_of_mem hr
    have hlength := LineStep.length_output number block (h raw hraw)
    rw [Bool.and_eq_true, List.isEmpty_iff_length_eq_zero, hlength]
    cases hcategory : (LineStep.ofRaw number block raw).record.category with
    | interpreter | blank => simp [LineRecord.isRuled, LineRecord.rule?, hcategory]
    | rule rule =>
      have hsize := Category.outputSize_eq_zero_iff (r := rule)
      simp only [LineRecord.isRuled, LineRecord.rule?, LineRecord.isLabel, hcategory,
        Option.isSome_some, and_true, Option.some.injEq, ← hsize]
      by_cases hlabel : rule = .label <;> simp [hlabel, Category.outputSize]
  rw [List.countP_filter, List.count, List.countP_filterMap]
  refine List.countP_congr fun r hr => ?_
  rw [hrecord r hr]
  cases r.rule? <;> simp

namespace Report

/-- A line that went through the rules is written or dropped (`suppressedLines`), and a written one
    changed or not. -/
theorem ofTrace_ruledLines (name : Text) (t : Trace) :
    (ofTrace name t).convertedLines + (ofTrace name t).unchangedLines +
      (ofTrace name t).suppressedLines = t.records.countP (·.isRuled) := by
  let ruled := t.records.filter (·.isRuled)
  let written := ruled.filter fun r => !r.output.isEmpty
  have hchanged : written.length = written.countP (·.changed) + written.countP (!·.changed) :=
    LineRecord.length_eq_countP_not (·.changed) written
  have hwritten : ruled.length = ruled.countP (·.output.isEmpty) + written.length := by
    rw [LineRecord.length_eq_countP_not (·.output.isEmpty) ruled]
    exact congrArg _ List.countP_eq_length_filter
  have hruled : ruled.length = t.records.countP (·.isRuled) := List.countP_eq_length_filter.symm
  rw [← hruled, hwritten, hchanged]
  simp only [ofTrace, ruled, written]
  omega

/-- The `totalLines` are interpreter lines, blank, or went through the rules. -/
theorem ofTrace_totalLines (name : Text) (t : Trace) :
    (ofTrace name t).totalLines = t.records.countP (·.category = .interpreter) +
      (ofTrace name t).blankLines + t.records.countP (·.isRuled) := by
  simp only [ofTrace, LineRecord.length_eq_countP t.records]
  omega

/-- The `ruleUsage` is one for each line that went through the rules. -/
theorem ofTrace_ruleUsage (name : Text) (t : Trace) :
    (ofTrace name t).ruleUsage.total = t.records.countP (·.isRuled) ∧
      ∀ r : Rule, ((ofTrace name t).ruleUsage.get? r.name).getD 0 =
        (t.records.filterMap (·.rule?)).count r := by
  rw [← LineRecord.length_filterMap_rule?]
  exact countRules_spec (t.records.filterMap (·.rule?))

/-- The interpreter lines of a report (`headerSuppressed`) are those that were dropped at the
    top. -/
theorem ofTrace_headerSuppressed (name : Text) (lines : List Text) :
    ((Trace.ofLines .closed lines).records.countP (·.category = .interpreter) : Int) =
      if (ofTrace name (.ofLines .closed lines)).headerSuppressed then 1 else 0 := by
  rw [Trace.countP_interpreter]
  split <;> rename_i hany <;> simp [ofTrace, hany]

/-- The length of a converted script, with the `labels` and the end that a report shows. -/
theorem ofTrace_length (settings : Settings) (name : Text) {lines : List Text}
    (h : ∀ raw ∈ lines, unbroken raw = true) :
    ((Script.convertLines settings lines).length : Int) =
      1 + ((Trace.ofLines .closed lines).records.map (·.category.outputSize)).sum +
        2 * max 0 (((ofTrace name (.ofLines .closed lines)).labels.length : Int) - 1) +
        if (ofTrace name (.ofLines .closed lines)).unclosedBlockAtEnd then 1 else 0 := by
  have hlabels : (ofTrace name (.ofLines .closed lines)).labels.length = _ :=
    LineRecord.length_filterMap_label? (Trace.ofLines .closed lines).records
  rw [Trace.length_convertLines settings h, hlabels]
  simp only [ofTrace, decide_eq_true_eq]
  split <;> omega

end Report

/-- **The counts of a report account for every line**, and the length of the converted script
    (`convertLines`) follows from them: the interpreter line, one line for each line that is kept,
    one more for each jump, two more for each label after the first, and the end of a function that
    is still open. -/
theorem Report.counts_account_for_lines (settings : Settings) (name script : Text) :
    let r := ofScript name script
    let uses (rule : Text) : Int := (r.ruleUsage.get? rule).getD 0
    r.totalLines = (splitLines script).length ∧
      r.totalLines = r.blankLines + r.convertedLines + r.unchangedLines + r.suppressedLines +
        (if r.headerSuppressed then 1 else 0) ∧
      r.ruleUsage.total = r.convertedLines + r.unchangedLines + r.suppressedLines ∧
      r.suppressedLines = uses "header" ∧
      ((Script.convertLines settings (splitLines script)).length : Int) =
        1 + r.blankLines + r.convertedLines + r.unchangedLines + uses "goto" +
          2 * max 0 ((r.labels.length : Int) - 1) + (if r.unclosedBlockAtEnd then 1 else 0) := by
  have hlines : ∀ raw ∈ splitLines script, unbroken raw = true :=
    fun raw => unbroken_of_mem_splitLines
  have hinterpreter := ofTrace_headerSuppressed name (splitLines script)
  have hsuppressed := Trace.countP_suppressed hlines
  have hwritten := ofTrace_length settings name hlines
  have hlength : (Trace.ofLines .closed (splitLines script)).records.length =
      (splitLines script).length := Trace.length_records _ _ _
  obtain ⟨t, ht⟩ : ∃ t, t = Trace.ofLines .closed (splitLines script) := ⟨_, rfl⟩
  rw [← ht] at hinterpreter hsuppressed hwritten hlength
  have htotal := ofTrace_totalLines name t
  have hruled := ofTrace_ruledLines name t
  obtain ⟨huses, huse⟩ := ofTrace_ruleUsage name t
  have hheader : ((ofTrace name t).ruleUsage.get? "header").getD 0 = _ := huse .header
  have hgoto : ((ofTrace name t).ruleUsage.get? "goto").getD 0 = _ := huse .goto
  have hblank : (ofTrace name t).blankLines = t.records.countP (·.category = .blank) := rfl
  have hdropped : (ofTrace name t).suppressedLines =
      (t.records.filterMap (·.rule?)).count .header := congrArg Nat.cast hsuppressed
  have hsizes := LineRecord.sum_outputSize_add_count t.records
  simp only [ofScript, ← ht]
  refine ⟨congrArg Nat.cast hlength, ?_, huses.trans hruled.symm, hdropped.trans hheader.symm, ?_⟩
  · omega
  · omega

end Seashell
