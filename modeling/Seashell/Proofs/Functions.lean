import Seashell.Proofs.Trace

set_option autoImplicit false

/-! # Functions made from labels

Seen along a whole run, the labels of a script write one complete function after the other. Each
label is a step that opens a function and first ends the one that is open (`LineStep.ofRaw_label`);
every other step leaves the function block alone (`LineStep.block_of_not_isLabel`); the end of the
script ends the last function.

From these two facts about a step follow, by induction over the lines, which block a run leaves
(`Trace.block_eq_ite`), what the labels and the end write (`labelOutput_append_finish`, as
`Block.labelsFrom` has it), and how many functions are open (`openFunctions_labelOutput`).
`Trace.functions_balanced` says it of a script and of the first lines of one. -/

namespace Seashell

open Text

/-! ## What labels write -/

namespace LineRecord

/-- The line of the record `r` is a label. -/
def isLabel (r : LineRecord) : Bool := r.category = .rule .label

/-- The output lines of `r` without the indentation of the line. -/
def dedented (r : LineRecord) : List Text := r.output.map (·.drop (blanks r.source).length)

/-- A record has a `label?` if its line is one. -/
theorem isSome_label? (r : LineRecord) : r.label?.isSome = r.isLabel := by
  cases h : r.category with
  | interpreter | blank => simp [label?, rule?, isLabel, h]
  | rule rule => by_cases hlabel : rule = .label <;> simp [label?, rule?, isLabel, h, hlabel]

theorem label?_of_not_isLabel {r : LineRecord} (h : r.isLabel = false) : r.label? = none :=
  Option.not_isSome_iff_eq_none.1 (by simp [isSome_label?, h])

/-- Without the blanks at its end (`trimEnd`), a label is its name and a colon. -/
theorem trimEnd_label {name rest : Text} (hrest : ∀ c ∈ rest, isBlank c = true) :
    trimEnd (name ++ ':' :: rest) = name ++ [':'] := by
  have hsplit : name ++ ':' :: rest = (name ++ [':']) ++ rest := by simp
  have hstops : stops isBlank (name ++ [':']).reverse = true := by
    rw [List.reverse_append]
    rfl
  rw [hsplit, trimEnd_append hstops hrest]

/-- The name of a label is read off its line by `label?`: the blanks at the end go, then the
    colon. -/
theorem label?_eq {r : LineRecord} {name rest : Text} (hr : r.isLabel = true)
    (hname : isName name = true) (hrest : ∀ c ∈ rest, isBlank c = true)
    (hbody : r.body = name ++ ':' :: rest) : r.label? = some name := by
  have hcategory : r.category = .rule .label := by simpa [isLabel] using hr
  have htrim : trimEnd r.body = name ++ [':'] := by rw [hbody, trimEnd_label hrest]
  -- all colons at the end are dropped, and a name has none of its own
  have hstops : stops (· == ':') name.reverse = true := by
    refine stops_of_forall fun c hc => ?_
    have hc := forall_of_isName hname c (List.mem_reverse.1 hc)
    cases hcolon : c == ':' with
    | false => rfl
    | true =>
      rw [eq_of_beq hcolon] at hc
      exact absurd hc (by decide)
  have hdrop : ((name ++ [':']).reverse.dropWhile (· == ':')).reverse = name := by
    rw [List.reverse_append, dropWhile_append_of_stops (by simp) hstops, List.reverse_reverse]
  simp only [label?, rule?, hcategory, htrim, hdrop, ↓reduceIte]

end LineRecord

theorem Statement.eq_label_of_mem {st : Statement} (h : Rule.label ∈ st.rules) :
    ∃ name, st = .label name := by
  cases st with
  | label name => exact ⟨name, rfl⟩
  | _ => simp [rules] at h

/-- A label has no substitution in it, so the rules see it (`ruleText`) as it stands. -/
theorem LineStep.ruleText_of_label {raw name rest : Text} (hname : isName name = true)
    (hrest : ∀ c ∈ rest, isBlank c = true) (h : ruleText raw = name ++ ':' :: rest) :
    trimStart raw = name ++ ':' :: rest := by
  have hchars : ∀ c, isNameChar c = false → isBlank c = false → c ≠ ':' → c ∉ ruleText raw := by
    intro c hnameChar hblank hcolon hm
    rw [h] at hm
    rcases List.mem_append.1 hm with hm | hm
    · exact absurd (forall_of_isName hname c hm) (by simp [hnameChar])
    · rcases List.mem_cons.1 hm with hm | hm
      · exact hcolon hm
      · exact absurd (hrest c hm) (by simp [hblank])
  have hback : '`' ∉ trimStart raw := by
    intro hm
    rcases Substitution.mem_modernize_of_backtick hm with hm | hm
    · exact hchars '`' (by decide) (by decide) (by decide) hm
    · exact hchars '$' (by decide) (by decide) (by decide) hm
  rw [← h, ruleText, Substitution.modernize_of_not_mem hback]

/-- A step on a label writes `labelLines` for its name, with the indentation of the line. -/
theorem LineStep.ofRaw_label_eq {number : Nat} {block : Block} {raw : Text}
    (hraw : unbroken raw = true) (h : (ofRaw number block raw).record.isLabel = true) :
    ∃ name rest : Text, isName name = true ∧ (∀ c ∈ rest, isBlank c = true) ∧
      trimStart raw = name ++ ':' :: rest ∧ ofRaw number block raw =
        ⟨⟨number, raw, .rule .label, (block.labelLines name).map (blanks raw ++ ·)⟩, .opened,
          nestingNotices number raw .label⟩ := by
  rcases ofRaw_cases number block hraw with ⟨_, hstep⟩ | ⟨_, hstep⟩ | ⟨r, st, _, hst, hkind, hstep⟩
  · simp [hstep, LineRecord.isLabel] at h
  · simp [hstep, LineRecord.isLabel] at h
  · have hr : r = .label := by simpa [hstep, LineRecord.isLabel] using h
    subst hr
    obtain ⟨name, rfl⟩ := Statement.eq_label_of_mem hkind
    obtain ⟨name', rest, hname, hrest, hlabel, htext⟩ := Statement.label?_eq_some_iff.1 hst
    obtain rfl : name = name' := Statement.label.inj hlabel
    exact ⟨name, rest, hname, hrest, ruleText_of_label hname hrest htext, hstep⟩

/-- A step on a label opens a function of its name: the `label?` of its record. -/
theorem LineStep.ofRaw_label {number : Nat} {block : Block} {raw : Text}
    (hraw : unbroken raw = true) (h : (ofRaw number block raw).record.isLabel = true) :
    ∃ name, (ofRaw number block raw).record.label? = some name ∧
      (ofRaw number block raw).record.dedented = block.labelLines name ∧
      (ofRaw number block raw).block = .opened := by
  obtain ⟨name, rest, hname, hrest, hbody, hstep⟩ := ofRaw_label_eq hraw h
  refine ⟨name, LineRecord.label?_eq h hname hrest (by rw [hstep]; exact hbody), ?_, by rw [hstep]⟩
  simp [hstep, LineRecord.dedented, Function.comp_def]

/-- A step on anything but a label (`isLabel`) leaves the function block. -/
theorem LineStep.block_of_not_isLabel {number : Nat} {block : Block} {raw : Text}
    (hraw : unbroken raw = true) (h : (ofRaw number block raw).record.isLabel = false) :
    (ofRaw number block raw).block = block := by
  rcases ofRaw_cases number block hraw with ⟨_, hstep⟩ | ⟨_, hstep⟩ | ⟨r, st, _, _, hkind, hstep⟩
  · rw [hstep]
  · rw [hstep]
  · rw [hstep]
    cases st with
    | label name =>
      have hr : r = .label := by simpa [Statement.rules] using hkind
      simp [hstep, LineRecord.isLabel, hr] at h
    | _ => rfl

/-! ## Functions along a run -/

namespace Trace

/-- What the labels among `records` write, without the indentation. -/
def labelOutput (records : List LineRecord) : List Text :=
  (records.filter (·.isLabel)).flatMap (·.dedented)

theorem labelOutput_cons (r : LineRecord) (records : List LineRecord) :
    labelOutput (r :: records) =
      (if r.isLabel then r.dedented else []) ++ labelOutput records := by
  cases h : r.isLabel <;> simp [labelOutput, h]

/-- One bit passes from line to line: a run with a label in it (`isLabel`) leaves a function open,
    any other run leaves the function block as it was. -/
theorem block_eq_ite {lines : List Text} (number : Nat) (block : Block)
    (h : ∀ raw ∈ lines, unbroken raw = true) :
    (ofLinesFrom number block lines).block =
      if (ofLinesFrom number block lines).records.any (·.isLabel) then .opened else block := by
  induction lines generalizing number block with
  | nil => rfl
  | cons raw rest ih =>
    obtain ⟨hraw, hrest⟩ := List.forall_mem_cons.1 h
    simp only [ofLinesFrom_cons, List.any_cons, ih _ _ hrest]
    cases hlabel : (LineStep.ofRaw number block raw).record.isLabel with
    | true =>
      obtain ⟨_, _, _, hopened⟩ := LineStep.ofRaw_label hraw hlabel
      simp [hopened]
    | false => simp [LineStep.block_of_not_isLabel hraw hlabel]

/-- The function block after the first `n` lines of a script. -/
def blockAfter (lines : List Text) (n : Nat) : Block := (ofLines .closed (lines.take n)).block

end Trace

/-- Functions without bodies, one for each of `labels`, with an empty line between two of them. -/
def emptyFunctions (labels : List Text) : List Text :=
  [[]].intercalate (labels.map fun label => [label ++ "() \x7b", "\x7d".toList])

/-- What labels write one after the other from a function block on, each by `labelLines`, with what
    the end of the script then writes. -/
def Block.labelsFrom : Block → List Text → List Text
  | block, [] => block.finish
  | block, label :: labels => block.labelLines label ++ labelsFrom .opened labels

theorem Block.labelsFrom_opened (label : Text) (labels : List Text) :
    labelsFrom .opened (label :: labels) = [tail, []] ++ emptyFunctions (label :: labels) := by
  induction labels generalizing label with
  | nil => rfl
  | cons next labels ih =>
    rw [labelsFrom, ih next]
    simp [emptyFunctions, labelLines, head, tail]

theorem Block.labelsFrom_closed (labels : List Text) :
    labelsFrom .closed labels = emptyFunctions labels := by
  cases labels with
  | nil => rfl
  | cons label labels =>
    have hopened : [tail, []] ++ labelsFrom .closed (label :: labels) =
        [tail, []] ++ emptyFunctions (label :: labels) := labelsFrom_opened label labels
    exact List.append_cancel_left hopened

namespace Trace

/-- The labels of a run, and its end, write what their names say and nothing else: `labelsFrom`. -/
theorem labelOutput_append_finish {lines : List Text} (number : Nat) (block : Block)
    (h : ∀ raw ∈ lines, unbroken raw = true) :
    labelOutput (ofLinesFrom number block lines).records ++
        (ofLinesFrom number block lines).block.finish =
      block.labelsFrom ((ofLinesFrom number block lines).records.filterMap (·.label?)) := by
  induction lines generalizing number block with
  | nil => rfl
  | cons raw rest ih =>
    obtain ⟨hraw, hrest⟩ := List.forall_mem_cons.1 h
    rw [ofLinesFrom_cons, labelOutput_cons]
    cases hlabel : (LineStep.ofRaw number block raw).record.isLabel with
    | true =>
      obtain ⟨name, hname, houtput, hblock⟩ := LineStep.ofRaw_label hraw hlabel
      simp only [↓reduceIte, List.append_assoc, List.filterMap_cons_some hname, houtput, hblock,
        ih _ _ hrest, Block.labelsFrom]
    | false =>
      have hnone := LineRecord.label?_of_not_isLabel hlabel
      have hblock := LineStep.block_of_not_isLabel hraw hlabel
      simp only [Bool.false_eq_true, ↓reduceIte, List.nil_append, List.filterMap_cons_none hnone,
        hblock, ih _ _ hrest]

end Trace

/-! ## Opened and ended functions -/

/-- The line opens a function: it ends as `Block.head` does. -/
def opensFunction (line : Text) : Bool := "() \x7b".toList.isSuffixOf line

/-- The line ends a function: it is `Block.tail`. -/
def endsFunction (line : Text) : Bool := line == "\x7d".toList

/-- How many functions `lines` open, less how many they end. -/
def openFunctions (lines : List Text) : Int :=
  (lines.countP opensFunction : Int) - lines.countP endsFunction

theorem openFunctions_append (first second : List Text) :
    openFunctions (first ++ second) = openFunctions first + openFunctions second := by
  simp only [openFunctions, List.countP_append]
  omega

/-- How many functions are open in `block`. -/
def Block.depth (block : Block) : Int := if block = .opened then 1 else 0

theorem opensFunction_head (label : Text) : opensFunction (Block.head label) = true := by
  rw [opensFunction, List.isSuffixOf_iff_suffix]
  exact List.suffix_append label _

theorem endsFunction_head (label : Text) : endsFunction (Block.head label) = false := by
  have hlength : (Block.head label).length = label.length + 4 := List.length_append
  refine beq_eq_false_iff_ne.2 fun h => ?_
  have : (Block.head label).length = 1 := congrArg List.length h
  omega

theorem Block.openFunctions_labelLines (label : Text) (block : Block) :
    openFunctions (block.labelLines label) = depth .opened - block.depth := by
  have hopens := opensFunction_head label
  have hends := endsFunction_head label
  cases block with
  | closed =>
    simp only [labelLines, openFunctions, List.countP_singleton, hopens, hends]
    rfl
  | opened =>
    have htail : opensFunction tail = false ∧ endsFunction tail = true := by decide
    have hempty : opensFunction [] = false ∧ endsFunction [] = false := by decide
    simp only [labelLines, openFunctions, List.countP_cons, List.countP_nil, hopens, hends,
      htail, hempty]
    rfl

namespace Trace

/-- Along a run, the functions that labels opened and did not end (`openFunctions`) are those of the
    block. -/
theorem openFunctions_labelOutput {lines : List Text} (number : Nat) (block : Block)
    (h : ∀ raw ∈ lines, unbroken raw = true) :
    openFunctions (labelOutput (ofLinesFrom number block lines).records) =
      (ofLinesFrom number block lines).block.depth - block.depth := by
  induction lines generalizing number block with
  | nil => simp [labelOutput, openFunctions]
  | cons raw rest ih =>
    obtain ⟨hraw, hrest⟩ := List.forall_mem_cons.1 h
    simp only [ofLinesFrom_cons, labelOutput_cons, openFunctions_append, ih _ _ hrest]
    cases hlabel : (LineStep.ofRaw number block raw).record.isLabel with
    | true =>
      obtain ⟨name, _, houtput, hblock⟩ := LineStep.ofRaw_label hraw hlabel
      rw [if_pos rfl, houtput, hblock, Block.openFunctions_labelLines]
      omega
    | false =>
      rw [if_neg (by simp), LineStep.block_of_not_isLabel hraw hlabel]
      simp [openFunctions]

/-- A record and the block after its line come from a step on the block before it, `blockAfter`. -/
theorem exists_step_at {lines : List Text} {i : Nat} {r : LineRecord}
    (h : (ofLines .closed lines).records[i]? = some r) :
    ∃ raw ∈ lines, r = (LineStep.ofRaw (1 + i) (blockAfter lines i) raw).record ∧
      blockAfter lines (i + 1) = (LineStep.ofRaw (1 + i) (blockAfter lines i) raw).block := by
  rw [ofLines, getElem?_records] at h
  obtain ⟨raw, hraw, rfl⟩ := Option.map_eq_some_iff.1 h
  refine ⟨raw, List.mem_of_getElem? hraw, rfl, ?_⟩
  -- the run is cut after its line `i`, which leaves that line as the last step
  obtain ⟨hlength, _⟩ := List.getElem?_eq_some_iff.1 hraw
  rw [blockAfter, ofLines, List.take_add_one, hraw, Option.toList_some, ofLinesFrom_append]
  simp [ofLinesFrom_cons, Nat.min_eq_left (Nat.le_of_lt hlength), blockAfter, ofLines]

end Trace

/-- **Functions are balanced and never nested**: the labels of a script and its end write one
    complete function after the other (`emptyFunctions`); a line that is no label leaves the
    function block as it is; and after any number of lines, the functions opened and not yet ended
    are one if the block is open and none otherwise. -/
theorem Trace.functions_balanced (script : Text) :
    let lines := splitLines script
    let trace := ofLines .closed lines
    labelOutput trace.records ++ trace.block.finish =
        emptyFunctions (trace.records.filterMap (·.label?)) ∧
      (∀ i r, trace.records[i]? = some r → r.isLabel = false →
        blockAfter lines (i + 1) = blockAfter lines i) ∧
      ∀ n, openFunctions (labelOutput (trace.records.take n)) =
        if blockAfter lines n = .opened then 1 else 0 := by
  have hlines : ∀ raw ∈ splitLines script, unbroken raw = true :=
    fun raw => unbroken_of_mem_splitLines
  refine ⟨?_, fun i r hr hlabel => ?_, fun n => ?_⟩
  · rw [← Block.labelsFrom_closed]
    exact labelOutput_append_finish 1 .closed hlines
  · obtain ⟨raw, hraw, rfl, hblock⟩ := exists_step_at hr
    rw [hblock, LineStep.block_of_not_isLabel (hlines raw hraw) hlabel]
  · have htake : ∀ raw ∈ (splitLines script).take n, unbroken raw = true :=
      fun raw hraw => hlines raw (List.mem_of_mem_take hraw)
    rw [ofLines, take_records, openFunctions_labelOutput 1 .closed htake]
    exact Int.sub_zero _

end Seashell
