import Seashell.Proofs.Inventory
import Seashell.Proofs.Lines

set_option autoImplicit false

/-! # The lines of a converted script

Two things are known of every line that is written. It is one physical line: no rule writes a
terminator into it (`Outcome.unbroken_of_mem_lines`, whatever the table of rules), so that the text
of the converted script splits into the lines it was made of (`Script.splitLines_convertText`). And
it is blank only where it should be: for each blank line of the script there is an empty one, and
each label after the first has a blank line before it; nothing else writes a blank line.

The second is a count, `Script.blank_lines_kept`. A statement on one line writes something else than
blanks (`Statement.allBlank_bash`), as each kind begins with a keyword or has a part that is not
blank. So a step writes a blank line for a blank line and for a label that ends a function
(`LineStep.countP_allBlank_output`), and `Trace.countP_output` of the inventory carries the count
along a run. -/

namespace Seashell

open Text

/-! ## Lines without terminators -/

/-- No statement brings a carriage return into its `bash` text. -/
theorem Statement.return_not_mem_bash {line : Text} {st : Statement} (block : Block)
    (hline : unbroken line = true) (hparts : ∀ t ∈ st.parts, unbroken t = true) :
    '\r' ∉ st.bash line block := by
  by_cases hst : st.isSingle = true
  · exact (unbroken_iff.1 (unbroken_bash block hst hline hparts)).2
  · cases st with
    | interpreter => exact List.not_mem_nil
    | jump target =>
      have htarget : unbroken (trim target) = true :=
        unbroken_of_subset (subset_trim target) (hparts target (by simp [parts]))
      have hcall := (unbroken_iff.1 (unbroken_callText htarget)).2
      have hbash : (jump target).bash line block = callText (trim target) ++ "\nreturn" := rfl
      rw [hbash, List.mem_append]
      rintro (hm | hm)
      · exact hcall hm
      · exact absurd hm (by decide)
    | label name =>
      have hname := (unbroken_iff.1 (hparts name (by simp [parts]))).2
      have hbash : (label name).bash line block = block.labelText name := rfl
      rw [hbash]
      cases block with
      | closed => simpa [Block.labelText, Block.head] using hname
      | opened => simpa [Block.labelText, Block.head, Block.tail, join] using hname
    | _ => exact absurd rfl hst

/-- Whatever the `table` of rules and the function block, a line becomes lines without
    terminators. -/
theorem Outcome.unbroken_of_mem_lines (table : List Rule) (block : Block) {line out : Text}
    (hline : unbroken line = true) (h : out ∈ (Outcome.ofLine table block line).lines) :
    unbroken out = true := by
  have hparts := (Rule.select_reads table line).2
  have htext : '\r' ∉ (Outcome.ofLine table block line).text :=
    Statement.return_not_mem_bash block hline fun t ht => unbroken_of_subset (hparts t ht) hline
  rw [lines] at h
  split at h
  · simp at h
  · exact unbroken_iff.2 ⟨not_mem_of_mem_splitOn h, fun hm => htext (subset_of_mem_splitOn h hm)⟩

namespace LineStep

/-- A line that goes through the rules of `ofLine` is written with its indentation before every
    output line. -/
theorem output_ofLine (number : Int) (block : Block) (line : Text) :
    (ofLine number block line).record.output =
      (Outcome.ofLine Rule.standard block (ruleText line)).lines.map (blanks line ++ ·) := by
  have hlines : ∀ (indent : Text) (o : Outcome),
      (if o.text.isEmpty then [] else applyIndent indent o.text) = o.lines.map (indent ++ ·) := by
    intro indent o
    unfold Outcome.lines
    split
    · rfl
    · rfl
  exact hlines (blanks line) _

/-- A step of `ofRaw` writes lines without terminators. -/
theorem unbroken_of_mem_output {number : Nat} {block : Block} {raw out : Text}
    (hraw : unbroken raw = true) (h : out ∈ (ofRaw number block raw).record.output) :
    unbroken out = true := by
  simp only [ofRaw, cleanLine_of_unbroken hraw] at h
  split at h
  · simp at h
  · split at h
    · obtain rfl : out = [] := by simpa using h
      rfl
    · rw [output_ofLine] at h
      obtain ⟨written, hwritten, rfl⟩ := List.mem_map.1 h
      have hindent : unbroken (blanks raw) = true :=
        unbroken_of_subset (List.takeWhile_prefix isBlank).subset hraw
      rw [unbroken_append, hindent,
        Outcome.unbroken_of_mem_lines _ _ (unbroken_ruleText hraw) hwritten]
      rfl

end LineStep

namespace Script

/-- No line of `convertLines` has a terminator in it, if the interpreter line has none. -/
theorem unbroken_of_mem_convertLines {settings : Settings} {lines : List Text} {out : Text}
    (hlines : ∀ raw ∈ lines, unbroken raw = true)
    (hheader : unbroken settings.interpreterLine = true)
    (h : out ∈ convertLines settings lines) : unbroken out = true := by
  simp only [convertLines, List.cons_append, List.mem_cons, List.mem_append, Trace.output,
    List.mem_flatMap] at h
  rcases h with rfl | ⟨r, hr, h⟩ | h
  · exact hheader
  · obtain ⟨number, block, raw, _, hraw, rfl⟩ := Trace.exists_step_of_mem hr
    exact LineStep.unbroken_of_mem_output (hlines raw hraw) h
  · cases hblock : (Trace.ofLines .closed lines).block with
    | closed => simp [hblock, Block.finish] at h
    | opened =>
      obtain rfl : out = Block.tail := by simpa [hblock, Block.finish] using h
      decide

theorem convertText_eq_unlines (settings : Settings) (script : Text) :
    convertText settings script =
      unlines .lineFeed (convertLines settings (splitLines script)) :=
  join_append_eq_fileText (by simp [convertLines])

end Script

/-- **Output lines are physical lines**: the text of a converted script (`convertText`) splits into
    the lines that it was made of, neither more nor fewer, exactly if the interpreter line of the
    settings has no terminator in it. No rule brings one into a line, whatever the table and the
    function block. -/
theorem Script.splitLines_convertText (settings : Settings) (script : Text) :
    (splitLines (convertText settings script) = convertLines settings (splitLines script) ↔
        unbroken settings.interpreterLine = true) ∧
      ∀ (table : List Rule) (block : Block) (line : Text), unbroken line = true →
        ∀ out ∈ (Outcome.ofLine table block line).lines, unbroken out = true := by
  refine ⟨⟨?_, ?_⟩, ?_⟩
  · intro hsplit
    have hfirst : settings.interpreterLine ∈ convertLines settings (splitLines script) :=
      List.mem_cons_self
    rw [← hsplit] at hfirst
    exact unbroken_of_mem_splitLines hfirst
  · intro hheader
    rw [convertText_eq_unlines]
    refine splitLines_unlines .lineFeed fun out hout => ?_
    exact unbroken_of_mem_convertLines (fun raw => unbroken_of_mem_splitLines) hheader hout
  · intro table block line hline out hout
    exact Outcome.unbroken_of_mem_lines table block hline hout

/-- A label and a jump write several lines each, which are the lines of the text. -/
theorem Script.splitLines_convertText_jump :
    unbroken Settings.standard.interpreterLine = true ∧
      splitLines (convertText Settings.standard "a:\r\n\rb:\r goto $a") =
        convertLines Settings.standard (splitLines "a:\r\n\rb:\r goto $a") ∧
      unbroken "goto $a" = true ∧
      ∀ out ∈ (Outcome.ofLine Rule.standard .opened "goto $a").lines, unbroken out = true := by
  obtain ⟨hsplit, hrules⟩ :=
    splitLines_convertText Settings.standard "a:\r\n\rb:\r goto $a"
  have hheader : unbroken Settings.standard.interpreterLine = true := by decide
  have hline : unbroken "goto $a" = true := by decide
  exact ⟨hheader, hsplit.2 hheader, hline, hrules Rule.standard .opened "goto $a" hline⟩

/-! ## Blank lines -/

namespace Text

@[simp] theorem allBlank_nil : allBlank [] = true := rfl

@[simp] theorem allBlank_cons (c : Char) (s : Text) :
    allBlank (c :: s) = (isBlank c && allBlank s) := rfl

@[simp] theorem allBlank_append (s t : Text) : allBlank (s ++ t) = (allBlank s && allBlank t) :=
  List.all_append

theorem allBlank_eq_false {s : Text} {c : Char} (h : s.head? = some c) (hc : isBlank c = false) :
    allBlank s = false := by
  obtain ⟨rest, rfl⟩ := List.head?_eq_some_iff.1 h
  rw [allBlank_cons, hc, Bool.false_and]

end Text

namespace Statement

/-- A jump that `jump?` reads has a target with something else than blanks in it. -/
theorem allBlank_trim_of_jump? {s target : Text} (h : jump? s = some (.jump target)) :
    allBlank (trim target) = false := by
  simp only [jump?, Option.bind_eq_bind, Option.pure_def] at h
  obtain ⟨rest, hrest, h⟩ := Option.bind_eq_some_iff.1 h
  obtain ⟨_, _, hgap⟩ := Option.bind_eq_some_iff.1 hrest
  obtain ⟨_, _, _, hstops, _⟩ := gap?_eq_some_iff.1 hgap
  cases rest with
  | nil => simp at h
  | cons c cs =>
    have hc : isBlank c = false := by simpa using hstops
    have hfeed : c ≠ '\n' := by
      rintro rfl
      exact absurd hc (by decide)
    have htarget : target = c :: firstLine cs := by
      simpa [firstLine, hfeed] using h.symm
    have hhead : (trim target).head? = some c := by
      rw [htarget, head?_trim (by simpa using hc), List.head?_cons]
    exact allBlank_eq_false hhead hc

/-- A statement on one line, by `isSingle`, writes something else than blanks. -/
theorem allBlank_bash {line : Text} {st : Statement} (block : Block) (hst : st.isSingle = true)
    (hline : allBlank line = false) : allBlank (st.bash line block) = false := by
  cases st with
  | interpreter | jump _ | label _ => exact absurd hst (by simp [isSingle])
  | verbatim => exact hline
  | _ =>
    unfold bash
    simp [isBlank]

theorem allBlank_callText {target : Text} (h : allBlank target = false) :
    allBlank (callText target) = false := by
  unfold callText
  split
  · simp [isBlank]
  · exact h

/-- A statement writes a blank line only if it is a `label` that ends a function. -/
theorem countP_allBlank_outputLines {line : Text} {st : Statement} {r : Rule} (block : Block)
    (hkind : r ∈ st.rules) (hread : r.recognize? line = some st) (hline : allBlank line = false) :
    (st.outputLines line block).countP allBlank = if r = .label ∧ block = .opened then 1 else 0 := by
  by_cases hst : st.isSingle = true
  · have hlabel : r ≠ .label := by
      rintro rfl
      obtain ⟨name, rfl⟩ := eq_label_of_mem hkind
      cases hst
    rw [outputLines_of_isSingle hst, if_neg fun h => hlabel h.1]
    simp [allBlank_bash block hst hline]
  · cases st with
    | interpreter =>
      obtain rfl : r = .header := by simpa [rules] using hkind
      rfl
    | jump target =>
      obtain rfl : r = .goto := by simpa [rules] using hkind
      have hcall := allBlank_callText (allBlank_trim_of_jump? hread)
      simp [outputLines, hcall, isBlank]
    | label name =>
      obtain rfl : r = .label := by simpa [rules] using hkind
      have hhead : allBlank (Block.head name) = false := by simp [Block.head, isBlank]
      cases block with
      | closed => simp [outputLines, Block.labelLines, hhead]
      | opened =>
        have htail : allBlank Block.tail = false := by decide
        simp [outputLines, Block.labelLines, hhead, htail, List.countP_cons]
    | _ => exact absurd rfl hst

end Statement

namespace LineStep

theorem allBlank_ruleText {line : Text} (h : allBlank line = false) :
    allBlank (ruleText line) = false := by
  have hne : trimStart line ≠ [] := by
    intro hnil
    rw [allBlank_iff_trimStart.2 hnil] at h
    cases h
  obtain ⟨c, cs, hbody⟩ := List.exists_cons_of_ne_nil hne
  have hc : isBlank c = false := by
    have hstops := stops_trimStart line
    rw [hbody] at hstops
    simpa using hstops
  -- the newer spelling begins with this character, or with the dollar sign of a substitution
  have hhead := Substitution.head?_modernize (trimStart line)
  split at hhead
  · exact allBlank_eq_false hhead (by decide)
  · rw [hbody] at hhead
    exact allBlank_eq_false (by rw [ruleText, hbody]; exact hhead) hc

/-- A line that is dropped as an `interpreter` line is not blank. -/
theorem allBlank_of_interpreter {number : Nat} {block : Block} {raw : Text}
    (hraw : unbroken raw = true)
    (h : ofRaw number block raw = ⟨⟨number, raw, .interpreter, []⟩, block, []⟩) :
    allBlank raw = false := by
  cases hblank : allBlank raw with
  | false => rfl
  | true =>
    have htrim : trim raw = [] := by
      rw [trim, allBlank_iff_trimStart.1 hblank]
      rfl
    simp [ofRaw, cleanLine_of_unbroken hraw, htrim, hblank, startsWith] at h

/-- A blank line is written as an empty one. -/
theorem output_of_allBlank {number : Nat} {block : Block} {raw : Text}
    (hraw : unbroken raw = true) (hblank : allBlank raw = true) :
    (ofRaw number block raw).record.output = [[]] := by
  rcases ofRaw_cases number block hraw with ⟨_, hstep⟩ | ⟨_, hstep⟩ | ⟨r, st, hnot, _, _, hstep⟩
  · have hnot := allBlank_of_interpreter hraw hstep
    rw [hblank] at hnot
    cases hnot
  · rw [hstep]
  · rw [hblank] at hnot
    cases hnot

/-- What `ofRaw` writes has a blank line in it for a blank line, and for a label that ends a
    function. -/
theorem countP_allBlank_output (number : Nat) (block : Block) {raw : Text}
    (h : unbroken raw = true) :
    (ofRaw number block raw).record.output.countP allBlank =
      (if allBlank (ofRaw number block raw).record.source then 1 else 0) +
        if (ofRaw number block raw).record.isLabel ∧ block = .opened then 1 else 0 := by
  rcases ofRaw_cases number block h with ⟨_, hstep⟩ | ⟨hblank, hstep⟩ |
    ⟨r, st, hblank, hread, hkind, hstep⟩
  · have hblank : allBlank raw = false := allBlank_of_interpreter h hstep
    simp [hstep, hblank, LineRecord.isLabel]
  · simp [hstep, hblank, LineRecord.isLabel]
  · have hindent : allBlank (blanks raw) = true := allBlank_iff.2 (forall_takeWhile isBlank raw)
    have hcount := Statement.countP_allBlank_outputLines block hkind hread (allBlank_ruleText hblank)
    simp [hstep, List.countP_map, Function.comp_def, hindent, hcount, hblank, LineRecord.isLabel]

end LineStep

theorem LineRecord.sum_eq_countP (p : LineRecord → Bool) (records : List LineRecord) :
    (records.map fun r => if p r then 1 else 0).sum = records.countP p := by
  induction records with
  | nil => rfl
  | cons r records ih => rw [List.map_cons, List.sum_cons, ih, List.countP_cons, Nat.add_comm]

/-- The blank lines that a run writes: those of the script, and one for each label that
    `openedBefore` counts. -/
theorem Trace.countP_allBlank_output {lines : List Text} (number : Nat) (block : Block)
    (h : ∀ raw ∈ lines, unbroken raw = true) :
    (ofLinesFrom number block lines).output.countP allBlank =
      lines.countP allBlank +
        openedBefore block ((ofLinesFrom number block lines).records.countP (·.isLabel)) := by
  have hcount := countP_output allBlank (fun r => if allBlank r.source then 1 else 0) 1
    (fun number block raw => LineStep.countP_allBlank_output number block) number block h
  have hsource : (ofLinesFrom number block lines).records.countP (fun r => allBlank r.source) =
      lines.countP allBlank := by
    have hmap := congrArg (List.countP allBlank) (source_records number block lines)
    rwa [List.countP_map, LineStep.map_cleanLine_of_unbroken h] at hmap
  rw [hcount, LineRecord.sum_eq_countP, hsource, Nat.one_mul]

/-- **Blank lines are kept**: `convertLines` gives as many of them as the script has, and one more
    before each label but the first. A blank line is written as one empty line. -/
theorem Script.blank_lines_kept (script : Text) :
    let lines := splitLines script
    let records := (Trace.ofLines .closed lines).records
    (convertLines Settings.standard lines).countP allBlank =
        lines.countP allBlank + (records.countP (·.isLabel) - 1) ∧
      ∀ (i : Nat) (line : Text), lines[i]? = some line → allBlank line = true →
        ∃ r : LineRecord, records[i]? = some r ∧ r.output = [[]] := by
  intro lines records
  have hlines : ∀ raw ∈ lines, unbroken raw = true := fun raw => unbroken_of_mem_splitLines
  refine ⟨?_, ?_⟩
  · have hheader : allBlank Settings.standard.interpreterLine = false := by decide
    have hfinish : (Trace.ofLines .closed lines).block.finish.countP allBlank = 0 := by
      cases (Trace.ofLines .closed lines).block with
      | closed => rfl
      | opened => rfl
    have hrun : (Trace.ofLines .closed lines).output.countP allBlank =
        lines.countP allBlank + (records.countP (·.isLabel) - 1) :=
      Trace.countP_allBlank_output 1 .closed hlines
    simp [convertLines, hheader, hfinish, hrun]
  · intro i line hline hblank
    have hrecord := Trace.getElem?_records 1 .closed lines i
    rw [hline, Option.map_some] at hrecord
    exact ⟨_, hrecord, LineStep.output_of_allBlank (hlines line (List.mem_of_getElem? hline)) hblank⟩

/-- Between two labels there is the blank line of the script and the one before the second label. -/
theorem Script.blank_lines_kept_twoLabels :
    (convertLines Settings.standard (splitLines "a:\n \nb:")).countP allBlank = 2 ∧
      (splitLines "a:\n \nb:")[1]? = some " ".toList ∧ allBlank " " = true ∧
      ∃ r : LineRecord, (Trace.ofLines .closed (splitLines "a:\n \nb:")).records[1]? = some r ∧
        r.output = [[]] := by
  obtain ⟨hcount, hempty⟩ := blank_lines_kept "a:\n \nb:"
  have hline : (splitLines "a:\n \nb:")[1]? = some " ".toList := by decide
  have hblank : allBlank " " = true := by decide
  exact ⟨hcount.trans (by decide +kernel), hline, hblank, hempty 1 " " hline hblank⟩

end Seashell
