import Seashell.Proofs.Output
import Seashell.Proofs.RuleOrder
import Seashell.Proofs.Substitution
import Seashell.Report.Analysis

set_option autoImplicit false

/-! # Steps and runs

What one step of a conversion can do with a line (`LineStep.ofRaw`), and how the trace of some lines
is put together from the steps (`Trace.ofLinesFrom`). Everything that is known of all traces is
proved of a step first, from `LineStep.ofRaw_cases`: an interpreter line at the top is dropped, a
blank line is kept as an empty one, and any other line is written as the statement says that its
rule reads off it.

To get from steps to runs there are two ways. Either by induction over the lines, with
`Trace.ofLinesFrom_append` where a run is cut in two; or from membership, since every record of a
run comes from a step on one of its lines (`Trace.exists_step_of_mem`) and the record at a position
from the step after those before it (`Trace.getElem?_records`). -/

namespace Seashell

open Text

/-! ## A step -/

namespace LineStep

/-- The part of a line that the rules look at: without indentation, and in the spelling of
    `modernize`. -/
def ruleText (line : Text) : Text := Substitution.modernize (trimStart line)

theorem ruleText_ne_nil {line : Text} (h : allBlank line = false) : ruleText line ≠ [] := by
  refine Substitution.modernize_ne_nil fun he => ?_
  rw [allBlank_iff_trimStart.2 he] at h
  cases h

theorem unbroken_ruleText {line : Text} (h : unbroken line = true) :
    unbroken (ruleText line) = true :=
  Substitution.unbroken_modernize (unbroken_of_subset (subset_trimStart line) h)

/-- `cleanLine` leaves a character that ends no line where it is. -/
theorem cleanLine_cons {c : Char} (raw : Text) (hc : isBreak c = false) :
    cleanLine (c :: raw) = c :: cleanLine raw := by
  obtain ⟨hfeed, hreturn⟩ := Bool.or_eq_false_iff.1 hc
  have hdrop : ((c :: raw).reverse.dropWhile (· == '\n')).reverse =
      c :: (raw.reverse.dropWhile (· == '\n')).reverse := by
    rw [List.reverse_cons, List.dropWhile_append]
    split
    · rename_i hempty
      simp [List.isEmpty_iff.1 hempty, hfeed]
    · simp
  rw [cleanLine, hdrop, List.filter_cons_of_pos (by simpa [bne] using hreturn)]
  rfl

/-- `cleanLine` leaves what stands within one line as it is. -/
theorem cleanLine_append {w : Text} (hw : unbroken w = true) (raw : Text) :
    cleanLine (w ++ raw) = w ++ cleanLine raw := by
  induction w with
  | nil => rfl
  | cons c w ih =>
    obtain ⟨hc, hw⟩ := Bool.and_eq_true_iff.1 hw
    rw [List.cons_append, cleanLine_cons _ (by simpa using hc), ih hw, List.cons_append]

theorem cleanLine_of_unbroken {raw : Text} (h : unbroken raw = true) : cleanLine raw = raw := by
  have hclean := cleanLine_append h []
  rwa [List.append_nil, show cleanLine [] = [] from rfl, List.append_nil] at hclean

theorem map_cleanLine_of_unbroken {lines : List Text} (h : ∀ raw ∈ lines, unbroken raw = true) :
    lines.map cleanLine = lines := by
  have hclean : lines.map cleanLine = lines.map id :=
    List.map_congr_left fun raw hraw => cleanLine_of_unbroken (h raw hraw)
  rw [hclean, List.map_id]

/-- A line that goes through the rules is written as `outputLines` of its statement says, every line
    with the indentation of the line. -/
theorem ofLine_eq (number : Int) (block : Block) {line : Text} {r : Rule} {st : Statement}
    (hline : unbroken line = true) (hblank : allBlank line = false)
    (hselect : Rule.select Rule.standard (ruleText line) = (r, st)) :
    ofLine number block line =
      ⟨⟨number, line, .rule r, (st.outputLines (ruleText line) block).map (blanks line ++ ·)⟩,
        st.blockAfter block, st.notices ++ nestingNotices number line r⟩ := by
  have hreads := (Rule.select_reads Rule.standard (ruleText line)).2
  rw [hselect] at hreads
  have hlines := Statement.lines_bash block (ruleText_ne_nil hblank) (unbroken_ruleText hline)
    fun t ht => unbroken_of_subset (hreads t ht) (unbroken_ruleText hline)
  have houtput : (if (st.bash (ruleText line) block).isEmpty then []
      else applyIndent (blanks line) (st.bash (ruleText line) block)) =
        (st.outputLines (ruleText line) block).map (blanks line ++ ·) := by
    rw [← hlines]
    split
    · rfl
    · rfl
  rw [← houtput]
  unfold ruleText at hselect ⊢
  simp only [ofLine, splitIndent, Outcome.ofLine, hselect]

/-- **What a step can do**: drop an interpreter line at the top, keep a blank line as an empty one,
    or write what the rule that recognises the line says. Only the last may change the function
    block. -/
theorem ofRaw_cases (number : Nat) (block : Block) {raw : Text} (h : unbroken raw = true) :
    (number = 1 ∧ ofRaw number block raw = ⟨⟨number, raw, .interpreter, []⟩, block, []⟩) ∨
    (allBlank raw = true ∧ ofRaw number block raw = ⟨⟨number, raw, .blank, [[]]⟩, block, []⟩) ∨
    ∃ r st, allBlank raw = false ∧ r.recognize? (ruleText raw) = some st ∧ r ∈ st.rules ∧
      ofRaw number block raw =
        ⟨⟨number, raw, .rule r, (st.outputLines (ruleText raw) block).map (blanks raw ++ ·)⟩,
          st.blockAfter block, st.notices ++ nestingNotices number raw r⟩ := by
  simp only [ofRaw, cleanLine_of_unbroken h]
  split
  · rename_i htop
    exact .inl ⟨htop.1, rfl⟩
  · split
    · rename_i hblank
      exact .inr (.inl ⟨hblank, rfl⟩)
    · rename_i hblank
      have hblank : allBlank raw = false := by simpa using hblank
      refine .inr (.inr ⟨_, _, hblank, Rule.recognize?_select (ruleText raw),
        (Rule.select_reads Rule.standard (ruleText raw)).1, ?_⟩)
      exact ofLine_eq number block h hblank rfl

/-- The record of `ofRaw` holds the number of its line and the line, cleaned. -/
theorem record_ofRaw (number : Nat) (block : Block) (raw : Text) :
    (ofRaw number block raw).record.number = number ∧
      (ofRaw number block raw).record.source = cleanLine raw := by
  simp only [ofRaw]
  split
  · exact ⟨rfl, rfl⟩
  · split <;> exact ⟨rfl, rfl⟩

end LineStep

/-! ## A run -/

namespace Trace

@[simp] theorem ofLinesFrom_nil (number : Nat) (block : Block) :
    ofLinesFrom number block [] = ⟨[], block, []⟩ := rfl

theorem ofLinesFrom_cons (number : Nat) (block : Block) (raw : Text) (rest : List Text) :
    ofLinesFrom number block (raw :: rest) =
      let step := LineStep.ofRaw number block raw
      let later := ofLinesFrom (number + 1) step.block rest
      ⟨step.record :: later.records, later.block, step.notices ++ later.notices⟩ := rfl

/-- Lines are converted from where the lines before them left off, in their `block`. -/
theorem ofLinesFrom_append (number : Nat) (block : Block) (first second : List Text) :
    ofLinesFrom number block (first ++ second) =
      let earlier := ofLinesFrom number block first
      let later := ofLinesFrom (number + first.length) earlier.block second
      ⟨earlier.records ++ later.records, later.block, earlier.notices ++ later.notices⟩ := by
  induction first generalizing number block with
  | nil => rfl
  | cons raw rest ih =>
    simp only [List.cons_append, ofLinesFrom_cons, ih, List.length_cons, List.append_assoc]
    rw [Nat.add_right_comm, Nat.add_assoc]

@[simp] theorem length_records (number : Nat) (block : Block) (lines : List Text) :
    (ofLinesFrom number block lines).records.length = lines.length := by
  induction lines generalizing number block with
  | nil => rfl
  | cons raw rest ih => simp [ofLinesFrom_cons, ih]

theorem source_records (number : Nat) (block : Block) (lines : List Text) :
    (ofLinesFrom number block lines).records.map (·.source) = lines.map LineStep.cleanLine := by
  induction lines generalizing number block with
  | nil => rfl
  | cons raw rest ih => simp only [ofLinesFrom_cons, List.map_cons, LineStep.record_ofRaw, ih]

/-- The first `records` of a trace are the trace of the first lines. -/
theorem take_records (number : Nat) (block : Block) (lines : List Text) (n : Nat) :
    (ofLinesFrom number block lines).records.take n =
      (ofLinesFrom number block (lines.take n)).records := by
  induction lines generalizing number block n with
  | nil => simp
  | cons raw rest ih =>
    cases n with
    | zero => rfl
    | succ n => simp [ofLinesFrom_cons, ih]

/-- Each line is converted from where the lines before it left off. -/
theorem getElem?_records (number : Nat) (block : Block) (lines : List Text) (i : Nat) :
    (ofLinesFrom number block lines).records[i]? = lines[i]?.map fun raw =>
      (LineStep.ofRaw (number + i) (ofLinesFrom number block (lines.take i)).block raw).record := by
  induction lines generalizing number block i with
  | nil => simp
  | cons raw rest ih =>
    cases i with
    | zero => rfl
    | succ i =>
      simp only [ofLinesFrom_cons, List.getElem?_cons_succ, List.take_succ_cons, ih]
      rw [Nat.add_right_comm, Nat.add_assoc]

/-- The steps of a run, one for each line, each from the `block` that the one before leaves. -/
def stepsFrom : Nat → Block → List Text → List LineStep
  | _, _, [] => []
  | number, block, raw :: rest =>
    let step := LineStep.ofRaw number block raw
    step :: stepsFrom (number + 1) step.block rest

/-- The steps of the conversion of a script. -/
def steps (lines : List Text) : List LineStep := stepsFrom 1 .closed lines

/-- A trace holds the records and the notices of `stepsFrom`. -/
theorem ofLinesFrom_eq_steps (number : Nat) (block : Block) (lines : List Text) :
    (ofLinesFrom number block lines).records = (stepsFrom number block lines).map (·.record) ∧
      (ofLinesFrom number block lines).notices =
        (stepsFrom number block lines).flatMap (·.notices) := by
  induction lines generalizing number block with
  | nil => exact ⟨rfl, rfl⟩
  | cons raw rest ih =>
    obtain ⟨hrecords, hnotices⟩ := ih (number + 1) (LineStep.ofRaw number block raw).block
    exact ⟨congrArg (_ :: ·) hrecords, congrArg (_ ++ ·) hnotices⟩

/-- Every step of `stepsFrom` is made on a line and with a number of the run. -/
theorem exists_of_mem_stepsFrom {number : Nat} {block : Block} {lines : List Text} {step : LineStep}
    (h : step ∈ stepsFrom number block lines) :
    ∃ m b raw, number ≤ m ∧ raw ∈ lines ∧ step = LineStep.ofRaw m b raw := by
  induction lines generalizing number block with
  | nil => simp [stepsFrom] at h
  | cons raw rest ih =>
    rcases List.mem_cons.1 h with rfl | h
    · exact ⟨number, block, raw, Nat.le_refl _, List.mem_cons_self, rfl⟩
    · obtain ⟨m, b, raw', hm, hraw, hstep⟩ := ih h
      exact ⟨m, b, raw', by omega, List.mem_cons_of_mem _ hraw, hstep⟩

/-- Every record comes from a step of `ofRaw`, on a line and with a number of the run. -/
theorem exists_step_of_mem {number : Nat} {block : Block} {lines : List Text} {r : LineRecord}
    (h : r ∈ (ofLinesFrom number block lines).records) :
    ∃ m b raw, number ≤ m ∧ raw ∈ lines ∧ r = (LineStep.ofRaw m b raw).record := by
  rw [(ofLinesFrom_eq_steps number block lines).1] at h
  obtain ⟨step, hstep, rfl⟩ := List.mem_map.1 h
  obtain ⟨m, b, raw, hm, hraw, rfl⟩ := exists_of_mem_stepsFrom hstep
  exact ⟨m, b, raw, hm, hraw, rfl⟩

end Trace
end Seashell
