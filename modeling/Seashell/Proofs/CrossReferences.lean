import Seashell.Proofs.CompoundConditions
import Seashell.Proofs.Functions
import Seashell.Script

set_option autoImplicit false

/-! # Labels, jumps and conditions of a report

A report reads the labels, the jumps and the compound conditions off the lines as they stand in the
script. The conversion has seen the lines in the newer spelling of substitutions (`ruleText`). Both
agree: what decides about a line stands before its first dollar sign or has no substitution sign in
it, and there the two spellings are the same.

For labels, `functionNames` reads the names of the functions off the output, and
`functionNames_records` says that they are the labels of the records. For jumps,
`LineStep.ofRaw_goto_eq` says what a step reads and writes, and for compound conditions
`LineStep.isCompound_of_notice` that a notice leaves its mark on the record. Each is a fact about
one step of the conversion, from which `Report.crossReferences_agree` follows over all
`Trace.steps`. -/

namespace Seashell

open Text

/-! ## Functions in the output -/

/-- The name of the function that `line` opens, without the indentation of the line. -/
def functionName? (line : Text) : Option Text :=
  if opensFunction line then some (trimStart (line.take (line.length - 4))) else none

theorem functionName?_head {indent name : Text} (hindent : ∀ c ∈ indent, isBlank c = true)
    (hname : isName name = true) : functionName? (indent ++ Block.head name) = some name := by
  have hopens : opensFunction (indent ++ Block.head name) = true := by
    rw [opensFunction, List.isSuffixOf_iff_suffix]
    exact ⟨indent ++ name, by simp [Block.head]⟩
  have htake : (indent ++ Block.head name).take ((indent ++ Block.head name).length - 4) =
      indent ++ name := by
    have hsplit : indent ++ Block.head name = (indent ++ name) ++ "() \x7b" := by
      rw [Block.head, List.append_assoc]
    have hlength : ((indent ++ name) ++ "() \x7b").length = (indent ++ name).length + 4 :=
      List.length_append
    rw [hsplit]
    exact List.take_left' (by omega)
  have hstart : stops isBlank name = true :=
    stops_of_forall fun c hc => by
      cases hblank : isBlank c with
      | false => rfl
      | true =>
        have := isNameChar_of_isBlank hblank
        rw [forall_of_isName hname c hc] at this
        cases this
  rw [functionName?, if_pos hopens, htake, trimStart_append hindent hstart]

/-- A line that opens a function ends in a brace; no other has a `functionName?`. -/
theorem functionName?_eq_none {line : Text} (h : line.getLast? ≠ some '\x7b') :
    functionName? line = none := by
  refine if_neg fun hopens => h ?_
  obtain ⟨lead, rfl⟩ := List.isSuffixOf_iff_suffix.1 hopens
  simp

/-- Among the `labelLines` of a label one opens a function, which has the name of the label. -/
theorem filterMap_functionName?_labelLines {indent name : Text} (block : Block)
    (hindent : ∀ c ∈ indent, isBlank c = true) (hname : isName name = true) :
    ((block.labelLines name).map (indent ++ ·)).filterMap functionName? = [name] := by
  have hhead := functionName?_head hindent hname
  cases block with
  | closed => simp [Block.labelLines, hhead]
  | opened =>
    have htail : functionName? (indent ++ Block.tail) = none :=
      functionName?_eq_none (by simp [Block.tail])
    have hempty : functionName? (indent ++ []) = none := by
      refine functionName?_eq_none fun hlast => ?_
      rw [List.append_nil] at hlast
      exact absurd (hindent _ (List.mem_of_getLast? hlast)) (by decide)
    simp only [Block.labelLines, List.map_cons, List.map_nil, List.filterMap_cons, htail, hempty,
      hhead, List.filterMap_nil]

namespace Trace

/-- The names of the functions that the labels among `records` open, in the order of the output. -/
def functionNames (records : List LineRecord) : List Text :=
  ((records.filter (·.isLabel)).flatMap (·.output)).filterMap functionName?

theorem functionNames_cons (r : LineRecord) (records : List LineRecord) :
    functionNames (r :: records) =
      (if r.isLabel then r.output.filterMap functionName? else []) ++ functionNames records := by
  cases h : r.isLabel <;> simp [functionNames, h]

/-- The functions of a run have the names of its labels: `functionNames` reads `label?` off the
    output. -/
theorem functionNames_records {lines : List Text} (number : Nat) (block : Block)
    (h : ∀ raw ∈ lines, unbroken raw = true) :
    functionNames (ofLinesFrom number block lines).records =
      (ofLinesFrom number block lines).records.filterMap (·.label?) := by
  induction lines generalizing number block with
  | nil => rfl
  | cons raw rest ih =>
    obtain ⟨hraw, hrest⟩ := List.forall_mem_cons.1 h
    rw [ofLinesFrom_cons, functionNames_cons, ih _ _ hrest]
    cases hlabel : (LineStep.ofRaw number block raw).record.isLabel with
    | false => simp [LineRecord.label?_of_not_isLabel hlabel]
    | true =>
      obtain ⟨name, tail, hname, htail, hbody, hstep⟩ := LineStep.ofRaw_label_eq hraw hlabel
      have hsome : (LineStep.ofRaw number block raw).record.label? = some name :=
        LineRecord.label?_eq hlabel hname htail (by rw [hstep]; exact hbody)
      have houtput : (LineStep.ofRaw number block raw).record.output.filterMap functionName? =
          [name] := by
        rw [hstep]
        exact filterMap_functionName?_labelLines block (forall_takeWhile isBlank raw) hname
      rw [List.filterMap_cons_some hsome, if_pos rfl, houtput]
      rfl

/-- A function is open at the end of a run if one was open before it, or there was a label
    (`label?`). -/
theorem block_eq_opened_iff {lines : List Text} (number : Nat) (block : Block)
    (h : ∀ raw ∈ lines, unbroken raw = true) :
    (ofLinesFrom number block lines).block = .opened ↔
      block = .opened ∨ (ofLinesFrom number block lines).records.filterMap (·.label?) ≠ [] := by
  have hlabels : (ofLinesFrom number block lines).records.filterMap (·.label?) ≠ [] ↔
      (ofLinesFrom number block lines).records.any (·.isLabel) = true := by
    simp [List.filterMap_eq_nil_iff, ← LineRecord.isSome_label?, Option.isSome_iff_ne_none]
  rw [hlabels, block_eq_ite number block h]
  split <;> simp [*]

end Trace

/-! ## Notices of nested labels -/

/-- The label that a `Notice` is about, as it stands in the script. -/
def Notice.nestedLabel? : Notice → Option Text
  | .nestedLabel _ label => some label
  | .compound _ => none

theorem Statement.filterMap_nestedLabel?_notices (st : Statement) :
    st.notices.filterMap Notice.nestedLabel? = [] := by
  unfold notices
  split
  · split <;> rfl
  · rfl

theorem LineStep.nestingNotices_of_ne {rule : Rule} (number : Int) (line : Text)
    (h : rule ≠ .label) : nestingNotices number line rule = [] :=
  if_neg fun hlabel => h hlabel.1

/-- A step gives notice of the label that its record shows as nested (`LineRecord.nestedLabel?`). -/
theorem LineStep.filterMap_nestedLabel?_notices {raw : Text} (number : Nat) (block : Block)
    (hraw : unbroken raw = true) :
    (ofRaw number block raw).notices.filterMap Notice.nestedLabel? =
      ((ofRaw number block raw).record.nestedLabel?.map (· ++ [':'])).toList := by
  cases hlabel : (ofRaw number block raw).record.isLabel with
  | true =>
    obtain ⟨name, rest, hname, hrest, hbody, hstep⟩ := ofRaw_label_eq hraw hlabel
    have hsome : (ofRaw number block raw).record.label? = some name :=
      LineRecord.label?_eq hlabel hname hrest (by rw [hstep]; exact hbody)
    rw [LineRecord.nestedLabel?, hsome, hstep]
    by_cases hindent : blanks raw = []
    · simp [nestingNotices, splitIndent, hindent]
    · simp [nestingNotices, splitIndent, hindent, hbody, LineRecord.trimEnd_label hrest,
        Notice.nestedLabel?]
  | false =>
    have hnone : (ofRaw number block raw).record.nestedLabel? = none := by
      rw [LineRecord.nestedLabel?, LineRecord.label?_of_not_isLabel hlabel, ite_self]
    rw [hnone]
    rcases ofRaw_cases number block hraw with ⟨_, hstep⟩ | ⟨_, hstep⟩ | ⟨r, st, _, _, _, hstep⟩
    · rw [hstep]
      rfl
    · rw [hstep]
      rfl
    · have hr : r ≠ .label := by
        intro he
        simp [hstep, LineRecord.isLabel, he] at hlabel
      rw [hstep, List.filterMap_append, st.filterMap_nestedLabel?_notices,
        nestingNotices_of_ne _ _ hr]
      rfl

/-! ## Compound conditions -/

/-- A line that `isCompound` in the newer spelling is so in the older spelling, too. -/
theorem Condition.isCompound_of_modernize {s : Text}
    (h : isCompound (Substitution.modernize s) = true) : isCompound s = true := by
  simp only [isCompound, Bool.or_eq_true, hasPart_iff] at h ⊢
  exact h.imp (Substitution.isInfix_of_isInfix_modernize (by decide) s)
    (Substitution.isInfix_of_isInfix_modernize (by decide) s)

/-- The target of a jump is the first `word` behind the keyword. -/
theorem LineRecord.target?_eq {r : LineRecord} {rest : Text} (h : r.rule? = some .goto)
    (hne : rest ≠ []) (hstops : stops isBlank rest = true)
    (hbody : (after? "goto" r.body).bind gap? = some rest) : r.target? = some (word rest) := by
  obtain ⟨c, cs, rfl⟩ := List.exists_cons_of_ne_nil hne
  have hc : isBlank c = false := by simpa using hstops
  rw [target?, if_pos h, hbody]
  simp [run?, word, hc]

namespace LineStep

/-- A `keyword` with a mark behind it opens the line in the older spelling, too. -/
theorem hasKeyword_of_ruleText {keyword raw g rest : Text} {mark : Char} (hkeyword : '$' ∉ keyword)
    (hmark : isWordChar mark = false ∧ mark ≠ '$') (hg : ∀ c ∈ g, isBlank c = true)
    (htext : ruleText raw = keyword ++ (g ++ mark :: rest)) :
    LineRecord.hasKeyword keyword (trimStart raw) = true := by
  obtain ⟨hword, hdollar⟩ := hmark
  have hsplit : ruleText raw = (keyword ++ (g ++ [mark])) ++ rest := by
    rw [htext]
    simp
  have hfree : '$' ∉ keyword ++ (g ++ [mark]) := by
    intro hm
    simp only [List.mem_append, List.mem_singleton] at hm
    rcases hm with hm | hm | hm
    · exact hkeyword hm
    · exact absurd (hg _ hm) (by decide)
    · exact hdollar hm.symm
  obtain ⟨after, hafter, _⟩ := Substitution.exists_of_modernize_eq_append hfree hsplit
  have hends : wordEnds (g ++ [mark] ++ after) = true := by
    cases g with
    | nil => simp [wordEnds, hword]
    | cons c cs => simp [wordEnds, isWordChar_of_isBlank (hg c List.mem_cons_self)]
  rw [LineRecord.hasKeyword, hafter, List.append_assoc, after?_append]
  exact hends

/-- The condition that a statement takes over as it is worded (`wordedCondition?`) is introduced by
    a keyword, and it is a piece of the line. -/
theorem of_wordedCondition? {raw condition : Text} {r : Rule} {st : Statement}
    (hst : r.recognize? (ruleText raw) = some st) (hkind : r ∈ st.rules)
    (hworded : st.wordedCondition? = some condition) :
    (LineRecord.hasKeyword "if" (trimStart raw) = true ∨
      LineRecord.hasKeyword "while" (trimStart raw) = true) ∧ condition <:+: ruleText raw := by
  have hr : r = .ifNot ∨ r = .whileLoop := by
    cases st with
    | ifNot c => exact .inl (by simpa [Statement.rules] using hkind)
    | whileLoop c => exact .inr (by simpa [Statement.rules] using hkind)
    | _ => simp [Statement.wordedCondition?] at hworded
  obtain ⟨t, ⟨st', hst', ht⟩, lead, g, h, rest, hlead, _, _, _, hline⟩ :=
    Rule.exists_captures (by rcases hr with rfl | rfl <;> decide) hst
  obtain rfl : st = st' := Option.some.inj (hst.symm.trans hst')
  obtain rfl : t = condition := by
    cases st with
    | ifNot c | whileLoop c => exact ht.trans (Option.some.inj hworded)
    | _ => simp [Statement.wordedCondition?] at hworded
  refine ⟨?_, hline ▸ ⟨lead ++ '(' :: g, h ++ ')' :: rest, by simp⟩⟩
  rcases hr with rfl | rfl
  · cases hlead with
    | ifNot hg _ =>
      rw [List.append_assoc, List.append_assoc] at hline
      exact .inl (hasKeyword_of_ruleText (by decide) ⟨by decide, by decide⟩ hg hline)
  · cases hlead with
    | whileLoop hg =>
      rw [List.append_assoc] at hline
      exact .inr (hasKeyword_of_ruleText (by decide) ⟨by decide, by decide⟩ hg hline)

theorem compound_not_mem_nestingNotices (condition : Text) (number : Int) (line : Text)
    (rule : Rule) : Notice.compound condition ∉ nestingNotices number line rule := by
  by_cases h : rule = .label ∧ blanks line ≠ []
  · simp [nestingNotices, splitIndent, h]
  · simp [nestingNotices, splitIndent, h]

/-- A step that gives notice of a compound condition leaves a record that `isCompound`. -/
theorem isCompound_of_notice {number : Nat} {block : Block} {raw condition : Text}
    (hraw : unbroken raw = true)
    (h : Notice.compound condition ∈ (ofRaw number block raw).notices) :
    (ofRaw number block raw).record.isCompound = true := by
  rcases ofRaw_cases number block hraw with ⟨_, hstep⟩ | ⟨_, hstep⟩ | ⟨r, st, _, hst, hkind, hstep⟩
  · simp [hstep] at h
  · simp [hstep] at h
  · rw [hstep, List.mem_append] at h
    have hnotice : Notice.compound condition ∈ st.notices :=
      h.resolve_right (compound_not_mem_nestingNotices condition number raw r)
    unfold Statement.notices at hnotice
    split at hnotice
    · rename_i c hworded
      split at hnotice
      · rename_i hcompound
        obtain ⟨hkeyword, hin⟩ := of_wordedCondition? hst hkind hworded
        have hbody : Condition.isCompound (trimStart raw) = true :=
          Condition.isCompound_of_modernize (Condition.isCompound_of_isInfix hin hcompound)
        rw [hstep]
        simp only [LineRecord.isCompound, LineRecord.isRuled, LineRecord.rule?, LineRecord.body,
          hbody, Option.isSome_some, Bool.true_and, Bool.and_true, Bool.or_eq_true]
        rcases hkeyword with hif | hwhile
        · exact .inl (.inr hif)
        · exact .inr hwhile
      · simp at hnotice
    · simp at hnotice

/-- A step on a jump reads its target behind the keyword and writes a call of it, trimmed and in the
    newer spelling (`Statement.callText`). In the older spelling the keyword has something behind
    it, too. -/
theorem ofRaw_goto_eq {number : Nat} {block : Block} {raw : Text} (hraw : unbroken raw = true)
    (h : (ofRaw number block raw).record.rule? = some .goto) :
    ∃ rest, rest ≠ [] ∧ stops isBlank (Substitution.modernize rest) = true ∧
      (after? "goto" (trimStart raw)).bind gap? = some rest ∧
      (after? "goto" (ruleText raw)).bind gap? = some (Substitution.modernize rest) ∧
      ofRaw number block raw = ⟨⟨number, raw, .rule .goto,
        [Statement.callText (trim (Substitution.modernize rest)), "return".toList].map
          (blanks raw ++ ·)⟩, block, []⟩ := by
  rcases ofRaw_cases number block hraw with ⟨_, hstep⟩ | ⟨_, hstep⟩ | ⟨r, st, _, hst, _, hstep⟩
  · simp [hstep, LineRecord.rule?] at h
  · simp [hstep, LineRecord.rule?] at h
  · obtain rfl : r = .goto := by simpa [hstep, LineRecord.rule?] using h
    simp only [Rule.recognize?, Statement.jump?, Option.bind_eq_bind] at hst
    obtain ⟨s, hs, hst⟩ := Option.bind_eq_some_iff.1 hst
    obtain ⟨s₀, h₀, hgap⟩ := Option.bind_eq_some_iff.1 hs
    obtain ⟨g, hne, hg, hstops, rfl⟩ := gap?_eq_some_iff.1 hgap
    have htext : ruleText raw = ("goto" ++ g) ++ s := by
      rw [after?_eq_some_iff.1 h₀, List.append_assoc]
    have hfree : '$' ∉ "goto" ++ g := by
      intro hm
      rcases List.mem_append.1 hm with hm | hm
      · exact absurd hm (by decide)
      · exact absurd (hg _ hm) (by decide)
    obtain ⟨rest, hrest, rfl⟩ := Substitution.exists_of_modernize_eq_append hfree htext
    have hbody : (after? "goto" (trimStart raw)).bind gap? = some rest := by
      rw [hrest, List.append_assoc, after?_append]
      exact gap?_eq_some_iff.2
        ⟨g, hne, hg, Substitution.stops_of_modernize (by decide) hstops, rfl⟩
    have hnonempty : rest ≠ [] := by
      rintro rfl
      simp at hst
    have hfirst : firstLine (Substitution.modernize rest) = Substitution.modernize rest := by
      refine firstLine_of_not_mem fun hm => (unbroken_iff.1 (unbroken_ruleText hraw)).1 ?_
      rw [htext]
      exact List.mem_append_right _ hm
    have hjump : st = .jump (Substitution.modernize rest) := by
      simpa [Substitution.modernize_ne_nil hnonempty, hfirst] using hst.symm
    refine ⟨rest, hnonempty, hstops, hbody, hs, ?_⟩
    rw [hstep, hjump, nestingNotices_of_ne _ _ (by decide)]
    rfl

/-- A step on a jump leaves a record with a `target?`. -/
theorem exists_target {number : Nat} {block : Block} {raw : Text} (hraw : unbroken raw = true)
    (h : (ofRaw number block raw).record.rule? = some .goto) :
    ∃ target, (ofRaw number block raw).record.target? = some target := by
  obtain ⟨rest, hne, hstops, hbody, _, hstep⟩ := ofRaw_goto_eq hraw h
  refine ⟨word rest, LineRecord.target?_eq h hne ?_ (by rw [hstep]; exact hbody)⟩
  exact Substitution.stops_of_modernize (by decide) hstops

end LineStep

/-- Notice of nested labels is given by the steps on them: `filterMap_nestedLabel?_notices` for all
    `steps`. -/
theorem Trace.filterMap_nestedLabel?_steps {lines : List Text}
    (h : ∀ raw ∈ lines, unbroken raw = true) :
    ((steps lines).flatMap (·.notices)).filterMap Notice.nestedLabel? =
      (((steps lines).map (·.record)).filterMap (·.nestedLabel?)).map (· ++ [':']) := by
  rw [List.filterMap_flatMap, List.filterMap_map, List.map_filterMap,
    List.filterMap_eq_flatMap_toList]
  refine List.flatMap_congr fun step hstep => ?_
  obtain ⟨m, b, raw, _, hraw, rfl⟩ := exists_of_mem_stepsFrom hstep
  exact LineStep.filterMap_nestedLabel?_notices m b (h raw hraw)

/-! ## Sets of targets -/

theorem TextSet.mem_ofList {t : Text} {ts : List Text} : t ∈ (ofList ts).toList ↔ t ∈ ts := by
  -- the fold is followed from any set on
  have hfold : ∀ s : TextSet, t ∈ (ts.foldl insert s).toList ↔ t ∈ s.toList ∨ t ∈ ts := by
    induction ts with
    | nil => simp
    | cons u us ih =>
      intro s
      rw [List.foldl_cons, ih, insert, mem_place, List.mem_cons]
      exact or_assoc.trans or_left_comm
  exact (hfold empty).trans (or_iff_right (by simp [empty]))

/-- `eraseDups` leaves no repetitions. -/
theorem Text.nodup_eraseDups (ts : List Text) : ts.eraseDups.Nodup := by
  match ts with
  | [] => simp
  | t :: ts =>
    rw [List.eraseDups_cons, List.nodup_cons]
    refine ⟨fun hm => ?_, nodup_eraseDups (ts.filter fun u => !u == t)⟩
    rw [List.mem_eraseDups, List.mem_filter] at hm
    simp at hm
termination_by ts.length
decreasing_by exact Nat.lt_succ_of_le (List.length_filter_le _ _)

/-- **The cross references of a report agree with the conversion**, which writes and gives notice of
    what its `steps` do, one for each line. The labels are the functions that labels open in the
    output, the nested labels those of which notice is given, a function is left open if there are
    labels and is then ended, the targets of jumps are listed once and the undefined ones are those
    without a function, and every line with a notice of a compound condition is listed as such. -/
theorem Report.crossReferences_agree (settings : Settings) (name script : Text) :
    let r := ofScript name script
    let lines := splitLines script
    let steps := Trace.steps lines
    let records := steps.map (·.record)
    let functions := Trace.functionNames records
    let closing := (Trace.ofLines .closed lines).block.finish
    (Script.convertLines settings lines =
        settings.interpreterLine :: records.flatMap (·.output) ++ closing ∧
      Script.notices lines = steps.flatMap (·.notices)) ∧
      r.labels = functions ∧
      (Script.notices lines).filterMap Notice.nestedLabel? = r.nestedLabels.map (· ++ [':']) ∧
      (r.unclosedBlockAtEnd = true ↔ closing = ["\x7d".toList]) ∧
      (r.unclosedBlockAtEnd = true ↔ r.labels ≠ []) ∧
      r.gotoTargets.Nodup ∧
      (∀ record ∈ records, record.rule? = some .goto → ∃ target, record.target? = some target) ∧
      (∀ t, t ∈ r.gotoTargets ↔
        (∃ record ∈ records, record.target? = some t) ∧ LineRecord.isDynamic t = false) ∧
      (∀ t, t ∈ r.undefinedGotoTargets.toList ↔ t ∈ r.gotoTargets ∧ t ∉ functions) ∧
      ∀ step ∈ steps, (∃ condition, Notice.compound condition ∈ step.notices) →
        step.record.number ∈ r.compoundConditionLines := by
  have hlines : ∀ raw ∈ splitLines script, unbroken raw = true :=
    fun raw => unbroken_of_mem_splitLines
  intro r lines steps records functions closing
  have hsteps : (Trace.ofLines .closed lines).records = records ∧
      Script.notices lines = steps.flatMap (·.notices) :=
    Trace.ofLinesFrom_eq_steps 1 .closed lines
  obtain ⟨hrecords, hnotices⟩ := hsteps
  have hlabels : r.labels = functions := by
    have := Trace.functionNames_records 1 .closed hlines
    exact this.symm.trans (congrArg Trace.functionNames hrecords)
  have hopened :
      r.unclosedBlockAtEnd = true ↔ (Trace.ofLines .closed lines).block = .opened :=
    decide_eq_true_iff
  refine ⟨⟨?_, hnotices⟩, hlabels, ?_, ?_, ?_, nodup_eraseDups _, ?_, ?_, ?_, ?_⟩
  · rw [← hrecords]
    rfl
  · have hnested : r.nestedLabels = records.filterMap (·.nestedLabel?) :=
      congrArg (List.filterMap _) hrecords
    rw [hnotices, hnested]
    exact Trace.filterMap_nestedLabel?_steps hlines
  · have hfinish (b : Block) : b = .opened ↔ b.finish = ["\x7d".toList] := by
      cases b <;> simp [Block.finish, Block.tail]
    exact hopened.trans (hfinish _)
  · refine hopened.trans ((Trace.block_eq_opened_iff 1 .closed hlines).trans ?_)
    exact or_iff_right (by simp)
  · intro record hrecord hgoto
    obtain ⟨step, hstep, rfl⟩ := List.mem_map.1 hrecord
    obtain ⟨m, b, raw, _, hraw, rfl⟩ := Trace.exists_of_mem_stepsFrom hstep
    exact LineStep.exists_target (hlines raw hraw) hgoto
  · intro t
    have htargets : r.gotoTargets =
        ((records.filterMap (·.target?)).filter (!LineRecord.isDynamic ·)).eraseDups := by
      rw [← hrecords]
      rfl
    rw [htargets, List.mem_eraseDups, List.mem_filter, List.mem_filterMap, Bool.not_eq_true']
  · intro t
    have hundefined : r.undefinedGotoTargets =
        TextSet.ofList (r.gotoTargets.filter (!r.labels.contains ·)) := rfl
    rw [hundefined, TextSet.mem_ofList, List.mem_filter, hlabels]
    simp
  · rintro step hstep ⟨condition, hnotice⟩
    refine List.mem_map.2 ⟨step.record, List.mem_filter.2 ⟨?_, ?_⟩, rfl⟩
    · exact hrecords ▸ List.mem_map_of_mem hstep
    · obtain ⟨m, b, raw, _, hraw, rfl⟩ := Trace.exists_of_mem_stepsFrom hstep
      exact LineStep.isCompound_of_notice (hlines raw hraw) hnotice

end Seashell
