import Seashell.Proofs.Functions
import Seashell.Proofs.Language.Tokens

set_option autoImplicit false

/-! # What the record of a line depends on

Two runs are compared here. The category of a line follows from the line and from whether it is the
first one (`Trace.categoryAt_congr`). Its record follows from these and from one bit, whether there
was a label before it (`Trace.labelBefore`), since that is all that a line finds of the lines before
it (`Trace.block_take_eq`). `Trace.records_local` puts this together.

Blanks put before a line pass through the conversion: they come before all that a rule writes for
the line, and nothing else changes. `LineRecord.indent` says what the record of the line is then. As
all of the comparisons here, it is made for one step first (`LineStep.ofRaw_indent`) and then along
the run (`Trace.ofLinesFrom_indent`), from which `Trace.indentation_equivariant` follows. -/

namespace Seashell

open Text

/-! ## The same line in two runs -/

/-- The category of a line in `ofRaw` depends neither on the function block nor on the number of the
    line, but for the first line. -/
theorem LineStep.category_ofRaw_congr {m n : Nat} (h : m = 1 ↔ n = 1) (b b' : Block) (raw : Text) :
    (ofRaw m b raw).record.category = (ofRaw n b' raw).record.category := by
  simp only [ofRaw, h]
  split
  · rfl
  · split
    · rfl
    · rfl

namespace Trace

/-- The category of the line at the position `i`. -/
def categoryAt (block : Block) (lines : List Text) (i : Nat) : Option Category :=
  (ofLines block lines).records[i]?.map (·.category)

/-- There is a label before the line at the position `i`. -/
def labelBefore (block : Block) (lines : List Text) (i : Nat) : Bool :=
  ((ofLines block lines).records.take i).any (·.isLabel)

theorem labelBefore_iff {block : Block} {lines : List Text} {i : Nat} :
    labelBefore block lines i = true ↔
      ∃ k < i, categoryAt block lines k = some (.rule .label) := by
  simp only [labelBefore, categoryAt, List.any_eq_true, List.mem_iff_getElem?, List.getElem?_take,
    Option.ite_none_right_eq_some, Option.map_eq_some_iff, LineRecord.isLabel, decide_eq_true_eq]
  constructor
  · rintro ⟨r, ⟨k, hk, hr⟩, hlabel⟩
    exact ⟨k, hk, r, hr, hlabel⟩
  · rintro ⟨k, hk, r, hr, hlabel⟩
    exact ⟨r, ⟨k, hk, hr⟩, hlabel⟩

/-- A line has the same `categoryAt` wherever it stands, but for the top. -/
theorem categoryAt_congr {lines others : List Text} {i j : Nat} (htop : i = 0 ↔ j = 0)
    (hline : lines[i]? = others[j]?) (b b' : Block) :
    categoryAt b lines i = categoryAt b' others j := by
  simp only [categoryAt, ofLines, getElem?_records, hline, Option.map_map]
  refine Option.map_congr fun raw _ => LineStep.category_ofRaw_congr ?_ _ _ raw
  omega

/-- What a line finds of the lines before it is whether one of them is a label, `labelBefore`. -/
theorem block_take_eq {lines : List Text} (block : Block) (i : Nat)
    (h : ∀ raw ∈ lines, unbroken raw = true) :
    (ofLinesFrom 1 block (lines.take i)).block =
      if labelBefore block lines i then .opened else block := by
  rw [block_eq_ite 1 block fun raw hraw => h raw (List.mem_of_mem_take hraw), ← take_records]
  rfl

theorem getElem?_records_congr {lines others : List Text} {i : Nat} (block : Block)
    (h : ∀ raw ∈ lines, unbroken raw = true) (h' : ∀ raw ∈ others, unbroken raw = true)
    (hline : lines[i]? = others[i]?) (hlabel : labelBefore block lines i = labelBefore block others i) :
    (ofLines block lines).records[i]? = (ofLines block others).records[i]? := by
  simp only [ofLines, getElem?_records, hline, block_take_eq block i h, block_take_eq block i h',
    hlabel]

/-- Another line in the place `i` changes nothing for the others, if neither of the two is a
    label. -/
theorem getElem?_records_set {block : Block} {lines : List Text} {i j : Nat} {other : Text}
    (h : ∀ raw ∈ lines, unbroken raw = true) (hother : unbroken other = true)
    (hold : categoryAt block lines i ≠ some (.rule .label))
    (hnew : categoryAt block (lines.set i other) i ≠ some (.rule .label)) (hj : j ≠ i) :
    (ofLines block (lines.set i other)).records[j]? = (ofLines block lines).records[j]? := by
  have hset : ∀ raw ∈ lines.set i other, unbroken raw = true := by
    intro raw hraw
    rcases List.mem_or_eq_of_mem_set hraw with hraw | rfl
    · exact h raw hraw
    · exact hother
  have hsame : ∀ k, k ≠ i → (lines.set i other)[k]? = lines[k]? :=
    fun k hk => List.getElem?_set_ne hk.symm
  refine getElem?_records_congr block hset h (hsame j hj) ?_
  -- the labels before the line stand at the same positions
  have hcategory : ∀ k, categoryAt block (lines.set i other) k = some (.rule .label) ↔
      categoryAt block lines k = some (.rule .label) := by
    intro k
    by_cases hk : k = i
    · rw [hk]
      exact iff_of_false hnew hold
    · rw [categoryAt_congr Iff.rfl (hsame k hk) block block]
  rw [Bool.eq_iff_iff, labelBefore_iff, labelBefore_iff]
  simp only [hcategory]

end Trace

/-- **The conversion is local up to one bit.** The `categoryAt` of a line is a function of the line
    and of whether it is the first. Two scripts have the same record of a line that they share at a
    position, if both or neither of them have a label before it (`labelBefore`). So another line in
    the place of one leaves the records of all other lines alone, if neither of the two is a
    label. -/
theorem Trace.records_local :
    (∃ category : Bool → Text → Category, ∀ (block : Block) (lines : List Text) (i : Nat) (raw : Text),
      lines[i]? = some raw → categoryAt block lines i = some (category (i = 0) raw)) ∧
    (∀ (block : Block) (lines others : List Text) (i : Nat) (raw : Text),
      (∀ line ∈ lines, unbroken line = true) → (∀ line ∈ others, unbroken line = true) →
      lines[i]? = some raw → others[i]? = some raw →
      labelBefore block lines i = labelBefore block others i →
      ∃ record, (ofLines block lines).records[i]? = some record ∧
        (ofLines block others).records[i]? = some record) ∧
    ∀ (block : Block) (lines : List Text) (i : Nat) (other : Text),
      (∀ line ∈ lines, unbroken line = true) → unbroken other = true →
      categoryAt block lines i ≠ some (.rule .label) →
      categoryAt block (lines.set i other) i ≠ some (.rule .label) →
      ∀ j, j ≠ i →
        (ofLines block (lines.set i other)).records[j]? = (ofLines block lines).records[j]? := by
  refine ⟨⟨fun top raw => (LineStep.ofRaw (if top then 1 else 2) .closed raw).record.category, ?_⟩,
    ?_, fun block lines i other h hother hold hnew j hj =>
      getElem?_records_set h hother hold hnew hj⟩
  · intro block lines i raw hraw
    rw [categoryAt, ofLines, getElem?_records, hraw]
    refine congrArg some (LineStep.category_ofRaw_congr ?_ _ _ raw)
    by_cases htop : i = 0 <;> simp [htop]
  · intro block lines others i raw h h' hraw hraw' hlabel
    have hsame := getElem?_records_congr block h h' (hraw.trans hraw'.symm) hlabel
    obtain ⟨record, hrecord⟩ : ∃ record, (ofLines block lines).records[i]? = some record := by
      rw [ofLines, getElem?_records, hraw]
      exact ⟨_, rfl⟩
    exact ⟨record, hrecord, hsame ▸ hrecord⟩

/-- A line that is not a label may be replaced between two labels, and the names of labels do not
    matter to the lines that follow. -/
theorem Trace.records_local_betweenLabels :
    (ofLines .closed ["a:".toList, "echo".toList, "b:".toList]).records[2]? =
        (ofLines .closed ["a:".toList, "  ".toList, "b:".toList]).records[2]? ∧
      ∃ record, (ofLines .closed ["a:".toList, "b:".toList]).records[1]? = some record ∧
        (ofLines .closed ["c:".toList, "b:".toList]).records[1]? = some record := by
  obtain ⟨_, hshared, hreplaced⟩ := records_local
  refine ⟨?_, ?_⟩
  · exact hreplaced .closed ["a:".toList, "  ".toList, "b:".toList] 1 "echo" (by decide) (by decide)
      (by decide +kernel) (by decide +kernel) 2 (by decide)
  · exact hshared .closed ["a:".toList, "b:".toList] ["c:".toList, "b:".toList] 1 "b:" (by decide)
      (by decide) rfl rfl (by decide +kernel)

/-! ## Blanks before a line -/

/-- The record of a line that has the blanks `w` put before it. -/
def LineRecord.indent (w : Text) (r : LineRecord) : LineRecord :=
  { r with
    source := w ++ r.source
    output := match r.category with
      | .rule _ => r.output.map (w ++ ·)
      | _ => r.output }

namespace LineStep

/-- What `ofLine` makes of a line is put behind the blanks before it. -/
theorem ofLine_indent (number : Int) (block : Block) (pad : Csh.Pad) (line : Text) :
    (ofLine number block (pad.text ++ line)).record =
        (ofLine number block line).record.indent pad.text ∧
      (ofLine number block (pad.text ++ line)).block = (ofLine number block line).block := by
  have hbody : trimStart (pad.text ++ line) = trimStart line :=
    List.dropWhile_append_of_pos pad.isBlank_of_mem
  have hindent : blanks (pad.text ++ line) = pad.text ++ blanks line :=
    List.takeWhile_append_of_pos pad.isBlank_of_mem
  have houtput : ∀ text : Text,
      (if text.isEmpty then [] else applyIndent (pad.text ++ blanks line) text) =
        (if text.isEmpty then [] else applyIndent (blanks line) text).map (pad.text ++ ·) := by
    intro text
    split
    · rfl
    · simp [applyIndent]
  simp only [ofLine, splitIndent, hbody, hindent, houtput, LineRecord.indent]
  exact ⟨rfl, trivial⟩

/-- **Blanks before a line pass through a step**: `ofRaw` decides about the line without them. -/
theorem ofRaw_indent (number : Nat) (block : Block) (pad : Csh.Pad) (raw : Text) :
    (ofRaw number block (pad.text ++ raw)).record =
        (ofRaw number block raw).record.indent pad.text ∧
      (ofRaw number block (pad.text ++ raw)).block = (ofRaw number block raw).block := by
  have htrim : trim (pad.text ++ cleanLine raw) = trim (cleanLine raw) :=
    congrArg trimEnd (List.dropWhile_append_of_pos pad.isBlank_of_mem)
  have hblank : allBlank (pad.text ++ cleanLine raw) = allBlank (cleanLine raw) := by
    rw [allBlank, List.all_append, show pad.text.all isBlank = true from pad.blank, Bool.true_and]
    rfl
  simp only [ofRaw, cleanLine_append pad.unbroken, htrim, hblank]
  split
  · exact ⟨rfl, rfl⟩
  · split
    · exact ⟨rfl, rfl⟩
    · exact ofLine_indent number block pad (cleanLine raw)

/-- A line that does not reach the rules writes one empty line if it is `blank`, and none
    otherwise. -/
theorem output_of_not_ruled (number : Nat) (block : Block) (raw : Text) :
    ((ofRaw number block raw).record.category = .blank →
        (ofRaw number block raw).record.output = [[]]) ∧
      ((ofRaw number block raw).record.category = .interpreter →
        (ofRaw number block raw).record.output = []) := by
  simp only [ofRaw]
  split
  · simp
  · split
    · simp
    · simp [ofLine]

end LineStep

namespace Trace

/-- Blanks before the lines of a run pass through the run, by `indent` of each record. -/
theorem ofLinesFrom_indent (number : Nat) (block : Block) (lines : List (Csh.Pad × Text)) :
    (ofLinesFrom number block (lines.map fun l => l.1.text ++ l.2)).records =
        List.zipWith (fun l r => r.indent l.1.text) lines
          (ofLinesFrom number block (lines.map (·.2))).records ∧
      (ofLinesFrom number block (lines.map fun l => l.1.text ++ l.2)).block =
        (ofLinesFrom number block (lines.map (·.2))).block := by
  induction lines generalizing number block with
  | nil => exact ⟨rfl, rfl⟩
  | cons l rest ih =>
    obtain ⟨hrecord, hblock⟩ := LineStep.ofRaw_indent number block l.1 l.2
    obtain ⟨hrecords, hlater⟩ := ih (number + 1) (LineStep.ofRaw number block l.2).block
    simp only [List.map_cons, ofLinesFrom_cons, hrecord, hblock, hrecords, hlater,
      List.zipWith_cons_cons, and_self]

/-- A line with blanks before it has the record of the line without them, with the blanks put in. -/
theorem getElem?_records_indent (block : Block) {lines : List (Csh.Pad × Text)} {i : Nat}
    {pad : Csh.Pad} {line : Text} (h : lines[i]? = some (pad, line)) :
    ∃ b, (ofLines block (lines.map (·.2))).records[i]? =
        some (LineStep.ofRaw (1 + i) b line).record ∧
      (ofLines block (lines.map fun l => l.1.text ++ l.2)).records[i]? =
        some ((LineStep.ofRaw (1 + i) b line).record.indent pad.text) := by
  have hrecord : (ofLinesFrom 1 block (lines.map (·.2))).records[i]? = some (LineStep.ofRaw (1 + i)
      (ofLinesFrom 1 block ((lines.map (·.2)).take i)).block line).record := by
    rw [getElem?_records, List.getElem?_map, h]
    rfl
  refine ⟨_, hrecord, ?_⟩
  rw [ofLines, (ofLinesFrom_indent 1 block lines).1, List.getElem?_zipWith, h, hrecord]

end Trace

/-- **Indentation passes through the conversion.** Blanks put before the lines of a script, any
    `Pad` before each, leave the function block after every line and the category of every line as
    they are. They come before each line that a rule writes. A blank line still gives one empty
    line, and an interpreter line at the top none. -/
theorem Trace.indentation_equivariant (block : Block) (lines : List (Csh.Pad × Text)) :
    let plain := lines.map (·.2)
    let indented := lines.map fun l => l.1.text ++ l.2
    (∀ n, (ofLines block (indented.take n)).block = (ofLines block (plain.take n)).block) ∧
    ∀ (i : Nat) (pad : Csh.Pad) (line : Text), lines[i]? = some (pad, line) →
      ∃ r s : LineRecord, (ofLines block plain).records[i]? = some r ∧
        (ofLines block indented).records[i]? = some s ∧ s.category = r.category ∧
        (∀ rule, r.category = .rule rule → s.output = r.output.map (pad.text ++ ·)) ∧
        (r.category = .blank → r.output = [[]] ∧ s.output = [[]]) ∧
        (r.category = .interpreter → r.output = [] ∧ s.output = []) := by
  intro plain indented
  refine ⟨fun n => ?_, fun i pad line hline => ?_⟩
  · rw [← List.map_take, ← List.map_take]
    exact (ofLinesFrom_indent 1 block (lines.take n)).2
  · obtain ⟨b, hrecord, hindented⟩ := getElem?_records_indent block hline
    obtain ⟨hblank, htop⟩ := LineStep.output_of_not_ruled (1 + i) b line
    refine ⟨_, _, hrecord, hindented, rfl, fun rule hrule => ?_, fun hcategory => ?_,
      fun hcategory => ?_⟩
    · simp only [LineRecord.indent, hrule]
    · simp only [LineRecord.indent, hcategory, hblank hcategory, and_self]
    · simp only [LineRecord.indent, hcategory, htop hcategory, and_self]

/-- A tab before a jump comes before both of the lines that the jump writes. -/
theorem Trace.indentation_equivariant_jump :
    ∃ r s : LineRecord, (ofLines .closed ["goto a".toList]).records[0]? = some r ∧
      (ofLines .closed ["\tgoto a".toList]).records[0]? = some s ∧ r.category = .rule .goto ∧
      s.output = r.output.map ("\t".toList ++ ·) := by
  obtain ⟨_, hlines⟩ := indentation_equivariant .closed [(⟨"\t", by decide, by decide⟩, "goto a")]
  obtain ⟨r, s, hr, hs, _, hrule, _⟩ := hlines 0 _ _ rfl
  have hr : (ofLines .closed ["goto a".toList]).records[0]? = some r := hr
  have hgoto : categoryAt .closed ["goto a".toList] 0 = some (.rule .goto) := by decide +kernel
  rw [categoryAt, hr, Option.map_some, Option.some.injEq] at hgoto
  exact ⟨r, s, hr, hs, hgoto, hrule .goto hgoto⟩

end Seashell
