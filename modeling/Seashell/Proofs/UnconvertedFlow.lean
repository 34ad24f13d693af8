import Seashell.Proofs.Trace

set_option autoImplicit false

/-! # Control flow that is left as it is

A report lists the lines that begin with a keyword of control flow but are not converted
(`LineRecord.isUnconvertedFlow`). It looks for the keywords that have something in parentheses
behind them (`Csh.headKeywords`). The others (`Csh.bareKeywords`) stand alone on their line when
they are converted, so a line on which something follows such a keyword is neither converted nor
listed.

`isUnconvertedFlow_iff` says in terms of the first two words of a line when it is listed. That a
keyword alone on its line is converted comes from its rule
(`LineStep.not_allBlank_afterLeadingWord`). A report has only the numbers of lines, so that the two
sides meet by `Trace.eq_of_number_eq`: a number names one record. `Report.unconverted_flow_listed`
puts this together, and `Report.endif_unlisted` is a line that is missed. -/

namespace Seashell

open Text

/-! ## Keywords -/

namespace Csh

/-- The keywords that blocks are made of. -/
def blockKeywords : List Text :=
  ["if", "else", "endif", "while", "foreach", "end", "switch", "case", "breaksw", "endsw"].map
    String.toList

/-- The keywords with something in parentheses behind them. -/
def headKeywords : List Text := ["if", "while", "foreach", "switch"].map String.toList

/-- The keywords that stand alone on their line. -/
def bareKeywords : List Text := ["else", "endif", "end", "breaksw", "endsw"].map String.toList

end Csh

namespace LineRecord

/-- The word that the line begins with: all characters of `isWordChar` at its start. -/
def leadingWord (r : LineRecord) : Text := r.body.takeWhile isWordChar

/-- What follows the `leadingWord` of the line. -/
def afterLeadingWord (r : LineRecord) : Text := r.body.dropWhile isWordChar

/-- The word behind the first one, with nothing but blanks between them. -/
def secondWord (r : LineRecord) : Text := (trimStart r.afterLeadingWord).takeWhile isWordChar

theorem wordEnds_eq_stops (s : Text) : wordEnds s = stops isWordChar s := by
  cases s with
  | nil => rfl
  | cons c cs => rfl

/-- By `hasKeyword` a text begins with a keyword as a whole word if the keyword is its first
    word. -/
theorem hasKeyword_iff {keyword s : Text} (h : ∀ c ∈ keyword, isWordChar c = true) :
    hasKeyword keyword s = true ↔ s.takeWhile isWordChar = keyword := by
  constructor
  · intro hs
    cases hrest : after? keyword s with
    | none => simp [hasKeyword, hrest] at hs
    | some rest =>
      have hends : stops isWordChar rest = true := by
        simpa [hasKeyword, hrest, wordEnds_eq_stops] using hs
      rw [after?_eq_some_iff.1 hrest, takeWhile_append_of_stops h hends]
  · intro hs
    have hsplit : s = keyword ++ s.dropWhile isWordChar := by
      rw [← hs, List.takeWhile_append_dropWhile]
    rw [hasKeyword, after?_eq_some_iff.2 hsplit, Option.map_some, Option.getD_some,
      wordEnds_eq_stops, stops_dropWhile]

theorem isWordChar_of_mem_headKeywords {keyword : Text} (h : keyword ∈ "else".toList :: Csh.headKeywords) :
    ∀ c ∈ keyword, isWordChar c = true := by
  have hall : ("else".toList :: Csh.headKeywords).all (·.all isWordChar) = true := by decide
  exact List.all_eq_true.1 (List.all_eq_true.1 hall keyword h)

theorem hasElseIf_iff (r : LineRecord) :
    hasElseIf r.body = true ↔ r.leadingWord = "else".toList ∧ r.secondWord = "if".toList := by
  have hif : ∀ c ∈ "if".toList, isWordChar c = true :=
    isWordChar_of_mem_headKeywords (by decide)
  have helse : ∀ c ∈ "else".toList, isWordChar c = true :=
    isWordChar_of_mem_headKeywords (by decide)
  constructor
  · intro h
    rw [hasElseIf] at h
    cases hrest : (after? "else" r.body).bind gap? with
    | none =>
      rw [hrest] at h
      cases h
    | some rest =>
      rw [hrest, Option.map_some, Option.getD_some] at h
      obtain ⟨s, hs, hgap⟩ := Option.bind_eq_some_iff.1 hrest
      obtain ⟨g, hne, hg, hstart, rfl⟩ := gap?_eq_some_iff.1 hgap
      have hblank : stops isWordChar (g ++ rest) = true := by
        rw [stops_append rest hne]
        exact stops_of_forall fun c hc => isWordChar_of_isBlank (hg c hc)
      rw [leadingWord, secondWord, afterLeadingWord, after?_eq_some_iff.1 hs,
        takeWhile_append_of_stops helse hblank, dropWhile_append_of_stops helse hblank,
        trimStart_append hg hstart]
      exact ⟨rfl, (hasKeyword_iff hif).1 h⟩
  · rintro ⟨hfirst, hsecond⟩
    have hsplit : r.body = "else".toList ++ r.afterLeadingWord := by
      rw [← hfirst, leadingWord, afterLeadingWord, List.takeWhile_append_dropWhile]
    -- the second word is no part of the first, so there is a blank before it
    have hgap : blanks r.afterLeadingWord ≠ [] := by
      intro hnone
      have hrest : trimStart r.afterLeadingWord = r.afterLeadingWord := by
        rw [← List.nil_append (trimStart _), ← hnone, blanks_append_trimStart]
      rw [secondWord, hrest, afterLeadingWord, takeWhile_of_stops (stops_dropWhile _ _)] at hsecond
      exact absurd hsecond (by decide)
    have hread : gap? r.afterLeadingWord = some (trimStart r.afterLeadingWord) :=
      if_neg (by simpa using hgap)
    rw [hasElseIf, after?_eq_some_iff.2 hsplit, Option.bind_some, hread, Option.map_some,
      Option.getD_some]
    exact (hasKeyword_iff hif).2 hsecond

/-- By `isUnconvertedFlow` a line is listed if it is not converted and one of the words that the
    report looks for stands at its start. -/
theorem isUnconvertedFlow_iff (r : LineRecord) :
    r.isUnconvertedFlow = true ↔ r.rule? = some .passthrough ∧
      (r.leadingWord ∈ Csh.headKeywords ∨
        r.leadingWord = "else".toList ∧ r.secondWord = "if".toList) := by
  have hkeyword : ∀ keyword ∈ Csh.headKeywords,
      (hasKeyword keyword r.body = true ↔ r.leadingWord = keyword) := fun keyword hk =>
    hasKeyword_iff (isWordChar_of_mem_headKeywords (List.mem_cons_of_mem _ hk))
  have hif := hkeyword "if" (by decide)
  have hwhile := hkeyword "while" (by decide)
  have hforeach := hkeyword "foreach" (by decide)
  have hswitch := hkeyword "switch" (by decide)
  simp only [isUnconvertedFlow, Bool.and_eq_true, Bool.or_eq_true, beq_iff_eq, hif, hwhile, hforeach,
    hswitch, hasElseIf_iff, Csh.headKeywords, List.map_cons, List.map_nil, List.mem_cons,
    List.not_mem_nil, or_false]
  exact and_congr_right fun _ => by grind

end LineRecord

/-! ## Lines that are not converted -/

/-- The `rule?` of a record is the one that the standard table selects for the line. -/
theorem LineStep.select_of_rule? {number : Nat} {block : Block} {raw : Text} {r : Rule}
    (hraw : unbroken raw = true) (h : (ofRaw number block raw).record.rule? = some r) :
    (ofRaw number block raw).record.body = trimStart raw ∧
      (Rule.select Rule.standard (ruleText raw)).1 = r := by
  simp only [ofRaw, cleanLine_of_unbroken hraw] at h ⊢
  split at h
  · cases h
  · split at h
    · cases h
    · rename_i htop hblank
      rw [if_neg htop, if_neg hblank]
      exact ⟨rfl, Option.some.inj h⟩

/-- Each keyword of `bareKeywords`, alone on its line, has its rule. -/
theorem Rule.exists_of_mem_bareKeywords {keyword : Text} (h : keyword ∈ Csh.bareKeywords) :
    ∃ (r : Rule) (st : Statement), r ≠ .passthrough ∧ r ≠ .label ∧
      r.recognize? = Statement.bareKeyword? keyword st := by
  simp only [Csh.bareKeywords, List.map_cons, List.map_nil, List.mem_cons, List.not_mem_nil,
    or_false] at h
  rcases h with rfl | rfl | rfl | rfl | rfl
  · exact ⟨.elseBranch, .elseBranch, by decide, by decide, rfl⟩
  · exact ⟨.endIf, .endIf, by decide, by decide, rfl⟩
  · exact ⟨.endLoop, .endLoop, by decide, by decide, rfl⟩
  · exact ⟨.breakSwitch, .breakSwitch, by decide, by decide, rfl⟩
  · exact ⟨.endSwitch, .endSwitch, by decide, by decide, rfl⟩

/-- A keyword of `bareKeywords` that stands alone on its line is converted. -/
theorem LineStep.not_allBlank_afterLeadingWord {number : Nat} {block : Block} {raw : Text}
    (hraw : unbroken raw = true)
    (hrule : (ofRaw number block raw).record.rule? = some .passthrough)
    (hkeyword : (ofRaw number block raw).record.leadingWord ∈ Csh.bareKeywords) :
    allBlank (ofRaw number block raw).record.afterLeadingWord = false := by
  obtain ⟨hbody, hselect⟩ := select_of_rule? hraw hrule
  cases hblank : allBlank (ofRaw number block raw).record.afterLeadingWord with
  | false => rfl
  | true =>
    obtain ⟨r, st, hpass, hlabel, hrecognize⟩ := Rule.exists_of_mem_bareKeywords hkeyword
    have hsplit : trimStart raw = (ofRaw number block raw).record.leadingWord ++
        (ofRaw number block raw).record.afterLeadingWord := by
      rw [LineRecord.leadingWord, LineRecord.afterLeadingWord, List.takeWhile_append_dropWhile, hbody]
    have hbacktick : '`' ∉ trimStart raw := by
      intro hm
      rw [hsplit] at hm
      rcases List.mem_append.1 hm with hm | hm
      · exact absurd (forall_takeWhile isWordChar _ _ hm) (by decide)
      · exact absurd (allBlank_iff.1 hblank _ hm) (by decide)
    have htext : ruleText raw = trimStart raw := Substitution.modernize_of_not_mem hbacktick
    have hread : r.recognize? (ruleText raw) = some st := by
      rw [hrecognize, htext, hsplit]
      exact Statement.bareKeyword?_eq_some_iff.2 ⟨rfl, _, allBlank_iff.1 hblank, rfl⟩
    rw [Rule.select_of_recognize? hpass hlabel hread] at hselect
    exact absurd hselect hpass

/-! ## The list of a report -/

/-- The number of a line says which record it has. -/
theorem Trace.eq_of_number_eq {number : Nat} {block : Block} {lines : List Text} {r s : LineRecord}
    (hr : r ∈ (ofLinesFrom number block lines).records)
    (hs : s ∈ (ofLinesFrom number block lines).records) (h : r.number = s.number) : r = s := by
  obtain ⟨i, hi⟩ := List.getElem?_of_mem hr
  obtain ⟨j, hj⟩ := List.getElem?_of_mem hs
  have hnumber : ∀ {k : Nat} {t : LineRecord}, (ofLinesFrom number block lines).records[k]? = some t →
      t.number = (number + k : Nat) := by
    intro k t ht
    rw [getElem?_records] at ht
    obtain ⟨raw, _, rfl⟩ := Option.map_eq_some_iff.1 ht
    exact (LineStep.record_ofRaw _ _ raw).1
  have hsame : i = j := by
    have := hnumber hi
    have := hnumber hj
    omega
  rw [hsame, hj] at hi
  exact (Option.some.inj hi).symm

namespace Report

/-- The warning of the lines that are not converted, `unconvertedControlFlowLines`. -/
def flowWarning (r : Report) : Text :=
  "Control flow left unconverted on lines: " ++ lineNumbers r.unconvertedControlFlowLines

/-- The `flowWarning` is given exactly if there are such lines. -/
theorem flowWarning_mem_warningsOf (r : Report) :
    r.flowWarning ∈ r.warningsOf ↔ r.unconvertedControlFlowLines ≠ [] := by
  constructor
  · intro h hnone
    simp only [warningsOf, hnone, List.isEmpty_nil, Bool.not_true, Bool.false_eq_true, if_false,
      List.append_nil, List.mem_append, List.mem_ite_nil_right, List.mem_singleton] at h
    -- the other warnings begin in another way
    rcases h with ((⟨_, h⟩ | ⟨_, h⟩) | ⟨_, h⟩) | ⟨_, h⟩
    · exact absurd (List.cons.inj h).1 (by decide)
    · exact absurd (List.cons.inj h).1 (by decide)
    · exact absurd (List.cons.inj h).1 (by decide)
    · exact absurd (List.cons.inj (List.cons.inj (List.cons.inj h).2).2).1 (by decide)
  · intro h
    have hsome : (!r.unconvertedControlFlowLines.isEmpty) = true := by simpa using h
    rw [warningsOf, hsome]
    exact List.mem_append_right _ List.mem_cons_self

/-- **What is listed as unconverted control flow.** Of the lines that begin with a keyword of
    control flow and are not converted, the report lists those with `if`, `while`, `foreach` or
    `switch` and those with `else if`, and no other lines. The keywords that stand alone on their
    line are only left as they are if something else follows them, and then the line is not listed.
    The report warns of the lines exactly if it lists any. -/
theorem unconverted_flow_listed (name script : Text) :
    let r := ofScript name script
    let records := (Trace.ofLines .closed (splitLines script)).records
    (∀ record ∈ records, record.rule? = some .passthrough →
      record.leadingWord ∈ Csh.blockKeywords →
      (record.number ∈ r.unconvertedControlFlowLines ↔ record.leadingWord ∈ Csh.headKeywords ∨
        record.leadingWord = "else".toList ∧ record.secondWord = "if".toList)) ∧
    (∀ n ∈ r.unconvertedControlFlowLines, ∃ record ∈ records, record.number = n ∧
      record.rule? = some .passthrough ∧ record.leadingWord ∈ Csh.blockKeywords) ∧
    (∀ record ∈ records, record.rule? = some .passthrough →
      record.leadingWord ∈ Csh.bareKeywords → allBlank record.afterLeadingWord = false) ∧
    (r.flowWarning ∈ r.warnings ↔ r.unconvertedControlFlowLines ≠ []) := by
  intro r records
  have hlisted : r.unconvertedControlFlowLines =
      (records.filter (·.isUnconvertedFlow)).map (·.number) := rfl
  refine ⟨fun record hrecord hrule _ => ?_, fun n hn => ?_, fun record hrecord hrule hkeyword => ?_, ?_⟩
  · rw [hlisted, List.mem_map]
    constructor
    · rintro ⟨other, hother, hnumber⟩
      obtain ⟨hother, hflow⟩ := List.mem_filter.1 hother
      obtain rfl := Trace.eq_of_number_eq hother hrecord hnumber
      exact (other.isUnconvertedFlow_iff.1 hflow).2
    · intro hword
      exact ⟨record, List.mem_filter.2 ⟨hrecord, record.isUnconvertedFlow_iff.2 ⟨hrule, hword⟩⟩, rfl⟩
  · obtain ⟨record, hrecord, rfl⟩ := List.mem_map.1 (hlisted ▸ hn)
    obtain ⟨hrecord, hflow⟩ := List.mem_filter.1 hrecord
    obtain ⟨hrule, hword⟩ := record.isUnconvertedFlow_iff.1 hflow
    refine ⟨record, hrecord, rfl, hrule, ?_⟩
    have hblock : ∀ keyword ∈ Csh.headKeywords, keyword ∈ Csh.blockKeywords := by decide
    rcases hword with hword | ⟨hword, _⟩
    · exact hblock _ hword
    · rw [hword]
      decide
  · obtain ⟨m, b, raw, _, hraw, rfl⟩ := Trace.exists_step_of_mem hrecord
    exact LineStep.not_allBlank_afterLeadingWord (unbroken_of_mem_splitLines hraw) hrule hkeyword
  · exact flowWarning_mem_warningsOf (ofTrace name (Trace.ofLines .closed (splitLines script)))

/-- An `endif` with a comment behind it stays in the script, and the report says nothing of it. -/
theorem endif_unlisted :
    let r := ofScript "script" "endif # done\n"
    let records := (Trace.ofLines .closed (splitLines "endif # done\n")).records
    records.map (fun record => (record.number, record.rule?, record.leadingWord)) =
        [(1, some .passthrough, "endif".toList)] ∧
      "endif".toList ∈ Csh.blockKeywords ∧ r.unconvertedControlFlowLines = [] ∧
      r.warnings = [] := by
  decide +kernel

end Report
end Seashell
