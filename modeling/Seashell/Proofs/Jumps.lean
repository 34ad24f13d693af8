import Seashell.Proofs.CrossReferences

set_option autoImplicit false

/-! # Jumps to evaluated targets

The conversion writes a jump as a call of its target (`calledTarget?`); a target that begins with a
dollar sign is evaluated (`isEvaluated`). It sees all that follows the keyword, in the newer
spelling of substitutions. A report sees the first word behind the keyword as it stands in the
script (`readTarget?`), and it counts the jumps whose target begins with a dollar sign apart from
those to a label. The two tell the same jumps apart, but for a target that begins with a
substitution in backticks (`isBackticked`): it is evaluated, and the report takes it for a label.

Both rest on `IsJump`, which holds what the record of a jump has for both, and on
`LineStep.exists_isJump`: a step on a jump leaves such a record. For both every jump has a target:
the report finds one in each line that is converted as a jump (`LineStep.rule?_eq_goto_iff`), so
that its `JumpTally` never stops short. -/

namespace Seashell

open Text

namespace LineRecord

/-- The target of the jump that the line makes, as it is called: trimmed and in the newer spelling
    of `ruleText`. -/
def calledTarget? (r : LineRecord) : Option Text :=
  if r.rule? = some .goto then
    ((after? "goto" (LineStep.ruleText r.source)).bind gap?).map trim
  else none

/-- The line makes a jump whose `calledTarget?` begins with a dollar sign, and which is written as
    an evaluation of this target. -/
def isEvaluated (r : LineRecord) : Bool :=
  r.calledTarget?.any fun t => isDynamic t && r.dedented.head? == some ("eval \"" ++ t ++ "\"")

/-- The line makes a jump whose target begins with a substitution in backticks, as
    `Substitution.backtick?` reads it. -/
def isBackticked (r : LineRecord) : Bool :=
  r.rule? = some .goto &&
    ((after? "goto" r.body).bind gap?).any fun s => (Substitution.backtick? s).isSome

/-! ## The first character of a target -/

/-- The first word begins as the text does, as a dollar sign is no blank: `isDynamic` sees no
    difference. -/
theorem isDynamic_word (s : Text) : isDynamic (word s) = isDynamic s := by
  cases s with
  | nil => rfl
  | cons c cs =>
    by_cases hc : c = '$'
    · subst hc
      rfl
    · cases hblank : isBlank c with
      | true => simp [isDynamic, word, hblank, hc]
      | false => simp [isDynamic, word, hblank]

theorem isDynamic_of_backtick? {s : Text} (h : (Substitution.backtick? s).isSome = true) :
    isDynamic s = false := by
  rw [isDynamic, Substitution.head?_of_backtick? h]
  rfl

/-- A dollar sign comes first after `modernize` if it did before, or else for a substitution. -/
theorem isDynamic_trim_modernize {s : Text}
    (h : stops isBlank (Substitution.modernize s) = true) :
    isDynamic (trim (Substitution.modernize s)) =
      ((Substitution.backtick? s).isSome || isDynamic s) := by
  rw [isDynamic, head?_trim h, Substitution.head?_modernize]
  cases (Substitution.backtick? s).isSome with
  | true => rfl
  | false => rfl

/-! ## The record of a jump -/

/-- The record is that of a jump: the text `rest` follows the keyword in the script, and what is
    written is a call of it in the newer spelling. -/
structure IsJump (r : LineRecord) (rest : Text) : Prop where
  rule : r.rule? = some .goto
  ne_nil : rest ≠ []
  starts : stops isBlank (Substitution.modernize rest) = true
  body : (after? "goto" r.body).bind gap? = some rest
  text : (after? "goto" (LineStep.ruleText r.source)).bind gap? =
    some (Substitution.modernize rest)
  dedented : r.dedented =
    [Statement.callText (trim (Substitution.modernize rest)), "return".toList]

namespace IsJump

variable {r : LineRecord} {rest : Text}

theorem target? (h : IsJump r rest) : r.target? = some (word rest) :=
  target?_eq h.rule h.ne_nil (Substitution.stops_of_modernize (by decide) h.starts) h.body

theorem calledTarget? (h : IsJump r rest) :
    r.calledTarget? = some (trim (Substitution.modernize rest)) := by
  rw [LineRecord.calledTarget?, if_pos h.rule, h.text, Option.map_some]

theorem isBackticked (h : IsJump r rest) :
    r.isBackticked = (Substitution.backtick? rest).isSome := by
  simp only [LineRecord.isBackticked, h.rule, h.body, Option.any_some, decide_true, Bool.true_and]

/-- A jump is evaluated if its target begins with a dollar sign or with a substitution. -/
theorem isEvaluated (h : IsJump r rest) :
    r.isEvaluated = ((Substitution.backtick? rest).isSome || isDynamic rest) := by
  rw [LineRecord.isEvaluated, h.calledTarget?, h.dedented, Option.any_some,
    ← isDynamic_trim_modernize h.starts]
  -- left is that an evaluation is written whenever the target calls for one
  cases hdynamic : isDynamic (trim (Substitution.modernize rest)) with
  | false => rfl
  | true =>
    have hcall : Statement.callText (trim (Substitution.modernize rest)) =
        "eval \"" ++ trim (Substitution.modernize rest) ++ "\"" := if_pos hdynamic
    rw [hcall, List.head?_cons, beq_self_eq_true, Bool.and_self]

end IsJump
end LineRecord

/-- A step on a `goto` leaves the record of a jump. -/
theorem LineStep.exists_isJump {number : Nat} {block : Block} {raw : Text}
    (hraw : unbroken raw = true) (h : (ofRaw number block raw).record.rule? = some .goto) :
    ∃ rest, (ofRaw number block raw).record.IsJump rest := by
  obtain ⟨rest, hne, hstops, hbody, htext, hstep⟩ := ofRaw_goto_eq hraw h
  refine ⟨rest, h, hne, hstops, ?_, ?_, ?_⟩
  · rw [hstep]
    exact hbody
  · rw [hstep]
    exact htext
  · rw [hstep]
    simp [LineRecord.dedented]

/-! ## The jumps of a run -/

namespace Trace

/-- Every record of a run is that of a jump (`IsJump`), or the line makes no jump at all. -/
theorem isJump_or_of_mem {number : Nat} {block : Block} {lines : List Text} {r : LineRecord}
    (h : ∀ raw ∈ lines, unbroken raw = true) (hr : r ∈ (ofLinesFrom number block lines).records) :
    (∃ rest, r.IsJump rest) ∨ r.target? = none ∧ r.isEvaluated = false ∧ r.isBackticked = false := by
  obtain ⟨m, b, raw, _, hraw, rfl⟩ := exists_step_of_mem hr
  by_cases hgoto : (LineStep.ofRaw m b raw).record.rule? = some .goto
  · exact .inl (LineStep.exists_isJump (h raw hraw) hgoto)
  · right
    simp [LineRecord.target?, LineRecord.isEvaluated, LineRecord.calledTarget?,
      LineRecord.isBackticked, hgoto]

/-- The `target?` of a jump is dynamic if the jump is evaluated and not in backticks. -/
theorem any_target?_of_mem {number : Nat} {block : Block} {lines : List Text} {r : LineRecord}
    (h : ∀ raw ∈ lines, unbroken raw = true) (hr : r ∈ (ofLinesFrom number block lines).records) :
    r.target?.any LineRecord.isDynamic = (r.isEvaluated && !r.isBackticked) := by
  rcases isJump_or_of_mem h hr with ⟨rest, hjump⟩ | ⟨htarget, hevaluated, _⟩
  · rw [hjump.target?, hjump.isEvaluated, hjump.isBackticked, Option.any_some,
      LineRecord.isDynamic_word]
    cases hback : (Substitution.backtick? rest).isSome with
    | false => simp
    | true => simp [LineRecord.isDynamic_of_backtick? hback]
  · rw [htarget, hevaluated]
    rfl

end Trace

/-- **A report and the conversion tell evaluated jumps apart alike, but for backticks.** A jump is
    written as a call of its `calledTarget?`, evaluated if the target begins with a dollar sign, and
    a return. The report counts in `dynamicGotos` the evaluated jumps whose target does not begin
    with a substitution in backticks, and lists the targets of all other jumps in `gotoTargets`;
    those of them that are no label are the undefined ones. A target that begins with a substitution
    in backticks is always evaluated. -/
theorem Report.dynamicGotos_eq (name script : Text) :
    let r := ofScript name script
    let records := (Trace.ofLines .closed (splitLines script)).records
    (∀ record ∈ records, record.rule? = some .goto → ∃ t, record.calledTarget? = some t ∧
      record.dedented =
        [if LineRecord.isDynamic t then "eval \"" ++ t ++ "\"" else t, "return".toList]) ∧
      (∀ record ∈ records, record.isBackticked = true → record.isEvaluated = true) ∧
      r.dynamicGotos = records.countP (fun record => record.isEvaluated && !record.isBackticked) ∧
      (∀ t, t ∈ r.gotoTargets ↔ ∃ record ∈ records, record.target? = some t ∧
        (record.isEvaluated = true → record.isBackticked = true)) ∧
      ∀ t, t ∈ r.undefinedGotoTargets.toList ↔ t ∈ r.gotoTargets ∧ t ∉ r.labels := by
  have hlines : ∀ raw ∈ splitLines script, unbroken raw = true :=
    fun raw => unbroken_of_mem_splitLines
  intro r records
  refine ⟨?_, ?_, ?_, ?_, ?_⟩
  · intro record hrecord hgoto
    obtain ⟨m, b, raw, _, hraw, rfl⟩ := Trace.exists_step_of_mem hrecord
    obtain ⟨rest, hjump⟩ := LineStep.exists_isJump (hlines raw hraw) hgoto
    exact ⟨_, hjump.calledTarget?, hjump.dedented⟩
  · intro record hrecord hback
    rcases Trace.isJump_or_of_mem hlines hrecord with ⟨rest, hjump⟩ | ⟨_, _, hnot⟩
    · rw [hjump.isBackticked] at hback
      rw [hjump.isEvaluated, hback, Bool.true_or]
    · rw [hnot] at hback
      cases hback
  · have hcount : r.dynamicGotos = (records.filterMap (·.target?)).countP LineRecord.isDynamic := rfl
    rw [hcount, List.countP_filterMap]
    refine congrArg Nat.cast (List.countP_congr fun record hrecord => ?_)
    rw [← Trace.any_target?_of_mem hlines hrecord]
    cases record.target? with
    | none => rfl
    | some t => rfl
  · intro t
    have htargets : r.gotoTargets =
        ((records.filterMap (·.target?)).filter (!LineRecord.isDynamic ·)).eraseDups := rfl
    rw [htargets, List.mem_eraseDups, List.mem_filter, List.mem_filterMap, Bool.not_eq_true',
      ← exists_and_right]
    refine exists_congr fun record => ?_
    rw [and_assoc]
    refine and_congr_right fun hrecord => and_congr_right fun htarget => ?_
    -- what the report asks of the target is asked of the line instead
    have hany := Trace.any_target?_of_mem hlines hrecord
    rw [htarget, Option.any_some] at hany
    rw [hany, Bool.and_eq_false_imp, Bool.not_eq_false']
  · intro t
    have hundefined : r.undefinedGotoTargets =
        TextSet.ofList (r.gotoTargets.filter (!r.labels.contains ·)) := rfl
    rw [hundefined, TextSet.mem_ofList, List.mem_filter]
    simp

/-- A jump to a substitution in backticks is evaluated, but the report counts no such jump and lists
    the substitution in `undefinedGotoTargets`. -/
theorem Report.backticked_goto_listed :
    let r := ofScript "script" "goto `x`\n"
    let records := (Trace.ofLines .closed (splitLines "goto `x`\n")).records
    records.countP (·.isEvaluated) = 1 ∧ r.dynamicGotos = 0 ∧
      r.gotoTargets = ["`x`".toList] ∧ r.undefinedGotoTargets.toList = ["`x`".toList] := by
  decide +kernel

/-! ## Reading targets off the script

A report goes through the records once more. On every line that was converted as a jump it looks for
the target again, now in the line as it stands in the script, and there is no report if it finds
none. -/

namespace LineRecord

/-- The target that a report finds in a line: the first word behind the keyword. -/
def readTarget? (body : Text) : Option Text :=
  (((after? "goto" body).bind gap?).bind (run? (!isBlank ·))).map (·.1)

theorem target?_of_goto {r : LineRecord} (h : r.rule? = some .goto) :
    r.target? = readTarget? r.body := if_pos h

/-- `readTarget?` finds a target behind the keyword and some blanks. -/
theorem exists_of_readTarget? {body : Text} (h : (readTarget? body).isSome = true) :
    ∃ g rest : Text, g ≠ [] ∧ (∀ c ∈ g, isBlank c = true) ∧ rest ≠ [] ∧ stops isBlank rest = true ∧
      body = ("goto" ++ g) ++ rest := by
  obtain ⟨target, htarget⟩ := Option.isSome_iff_exists.1 h
  obtain ⟨⟨word, after⟩, hword, _⟩ := Option.map_eq_some_iff.1 htarget
  obtain ⟨rest, hrest, hrun⟩ := Option.bind_eq_some_iff.1 hword
  obtain ⟨s, hs, hgap⟩ := Option.bind_eq_some_iff.1 hrest
  obtain ⟨g, hne, hg, hstops, rfl⟩ := gap?_eq_some_iff.1 hgap
  obtain ⟨hword, _, _, rfl⟩ := run?_eq_some_iff.1 hrun
  refine ⟨g, word ++ after, hne, hg, List.append_ne_nil_of_left_ne_nil hword _, hstops, ?_⟩
  rw [List.append_assoc, after?_eq_some_iff.1 hs]

end LineRecord

/-- Where `readTarget?` finds a target in the line, the rules find a jump. -/
theorem LineStep.select_of_readTarget? {raw : Text}
    (h : (LineRecord.readTarget? (trimStart raw)).isSome = true) :
    ∃ st, Rule.select Rule.standard (ruleText raw) = (.goto, st) := by
  obtain ⟨g, rest, hne, hg, hrest, hstops, hbody⟩ := LineRecord.exists_of_readTarget? h
  have hback : '`' ∉ "goto" ++ g := by
    intro hm
    rcases List.mem_append.1 hm with hm | hm
    · exact absurd hm (by decide)
    · exact absurd (hg _ hm) (by decide)
  have htext : ruleText raw = "goto" ++ (g ++ Substitution.modernize rest) := by
    rw [ruleText, hbody, Substitution.modernize_append hback, List.append_assoc]
  have hgap : gap? (g ++ Substitution.modernize rest) = some (Substitution.modernize rest) :=
    gap?_eq_some_iff.2 ⟨g, hne, hg, Substitution.stops_modernize (by decide) hstops, rfl⟩
  have hjump : Rule.recognize? .goto (ruleText raw) =
      some (.jump (firstLine (Substitution.modernize rest))) := by
    rw [htext, Rule.recognize?, Statement.jump?, after?_append, Option.bind_some, hgap]
    simp [Substitution.modernize_ne_nil hrest]
  exact ⟨_, Rule.select_of_recognize? (by decide) (by decide) hjump⟩

/-- **A line is converted as a jump if `readTarget?` finds a target in it**, and no other line
    is. -/
theorem LineStep.rule?_eq_goto_iff {number : Nat} {block : Block} {raw : Text}
    (hraw : unbroken raw = true) :
    (ofRaw number block raw).record.rule? = some .goto ↔
      (LineRecord.readTarget? (ofRaw number block raw).record.body).isSome = true := by
  have hbody : (ofRaw number block raw).record.body = trimStart raw := by
    rw [LineRecord.body, (record_ofRaw number block raw).2, cleanLine_of_unbroken hraw]
  constructor
  · intro h
    obtain ⟨target, htarget⟩ := exists_target hraw h
    rw [← LineRecord.target?_of_goto h, htarget]
    rfl
  · intro h
    rw [hbody] at h
    obtain ⟨g, rest, _, _, _, _, hline⟩ := LineRecord.exists_of_readTarget? h
    obtain ⟨st, hselect⟩ := select_of_readTarget? h
    have hblank : allBlank raw = false := by
      cases hblank : allBlank raw with
      | false => rfl
      | true =>
        rw [allBlank_iff_trimStart.1 hblank] at hline
        simp at hline
    -- the line begins with the keyword, so it is no interpreter line
    have hhead : (trim raw).head? = some 'g' := by
      have htrim : trim raw = trim (trimStart raw) := by
        rw [trim, trim, trimStart_of_stops (stops_trimStart raw)]
      rw [htrim, head?_trim (stops_trimStart raw), hline]
      rfl
    have htop : ¬(number = 1 ∧ (trim raw).startsWith "#!" = true) := by
      rintro ⟨_, hlead⟩
      obtain ⟨after, hafter⟩ := List.isPrefixOf_iff_prefix.1 hlead
      rw [← hafter] at hhead
      simp at hhead
    unfold ofRaw
    rw [cleanLine_of_unbroken hraw]
    simp only [htop, hblank, ↓reduceIte, Bool.false_eq_true, ofLine_eq number block hraw hblank hselect]
    rfl

/-- The jumps that a report counts and lists. -/
structure JumpTally where
  /-- How many jumps have a target that is known only at run time. -/
  dynamic : Int
  /-- The other targets, each of them once. -/
  targets : List Text
deriving Repr, DecidableEq

namespace JumpTally

/-- Adds the jump that a line makes; `none` if the line was converted as a jump, but no target is
    found in it. -/
def add? (tally : JumpTally) (r : LineRecord) : Option JumpTally :=
  if r.rule? = some .goto then
    (LineRecord.readTarget? r.body).map fun target =>
      if LineRecord.isDynamic target then { tally with dynamic := tally.dynamic + 1 }
      else if target ∈ tally.targets then tally
      else { tally with targets := tally.targets ++ [target] }
  else some tally

/-- Goes through the records of a script by `add?`, line by line. -/
def ofRecords? (records : List LineRecord) : Option JumpTally := records.foldlM add? ⟨0, []⟩

/-- The tally of some targets: how many are `isDynamic`, and the others without repetitions. -/
def ofTargets (targets : List Text) : JumpTally :=
  ⟨targets.countP LineRecord.isDynamic, (targets.filter (!LineRecord.isDynamic ·)).eraseDups⟩

/-- `add?` puts the target of a line behind those before it. -/
theorem add?_ofTargets {targets : List Text} {r : LineRecord}
    (h : r.rule? = some .goto → r.target?.isSome = true) :
    (ofTargets targets).add? r = some (ofTargets (targets ++ r.target?.toList)) := by
  unfold add?
  split
  · rename_i hgoto
    obtain ⟨target, htarget⟩ := Option.isSome_iff_exists.1 (h hgoto)
    rw [← LineRecord.target?_of_goto hgoto, htarget, Option.map_some, Option.toList_some]
    cases hdynamic : LineRecord.isDynamic target with
    | true => simp [ofTargets, hdynamic]
    | false =>
      by_cases hmem : target ∈ targets
      · simp [ofTargets, hdynamic, hmem, List.eraseDups_append, List.removeAll]
      · simp [ofTargets, hdynamic, hmem, List.eraseDups_append, List.removeAll, List.eraseDups_cons]
  · rename_i hgoto
    rw [LineRecord.target?, if_neg hgoto, Option.toList_none, List.append_nil]

/-- The fold of `add?` is complete if a target is found in every jump. -/
theorem foldlM_add? {records : List LineRecord} (targets : List Text)
    (h : ∀ r ∈ records, r.rule? = some .goto → r.target?.isSome = true) :
    records.foldlM add? (ofTargets targets) =
      some (ofTargets (targets ++ records.filterMap (·.target?))) := by
  induction records generalizing targets with
  | nil => simp
  | cons r records ih =>
    obtain ⟨hr, hrecords⟩ := List.forall_mem_cons.1 h
    rw [List.foldlM_cons, add?_ofTargets hr, Option.bind_eq_bind, Option.bind_some, ih _ hrecords,
      List.append_assoc]
    cases htarget : r.target? with
    | none => rw [List.filterMap_cons_none htarget, Option.toList_none, List.nil_append]
    | some target => rw [List.filterMap_cons_some htarget, Option.toList_some, List.singleton_append]

end JumpTally

/-- **A report finds the target of every jump.** The lines that are converted as jumps are those in
    which `readTarget?` finds a target as they stand in the script, although the rules see them in
    the newer spelling. So `JumpTally.ofRecords?` never stops at a jump without a target, and what
    it finds is what the report says. -/
theorem Report.jumps_have_targets (name script : Text) :
    let r := ofScript name script
    let records := (Trace.ofLines .closed (splitLines script)).records
    (∀ record ∈ records, record.rule? = some .goto ↔
      ∃ target, LineRecord.readTarget? record.body = some target) ∧
      JumpTally.ofRecords? records = some ⟨r.dynamicGotos, r.gotoTargets⟩ := by
  intro r records
  have hjump : ∀ record ∈ records, record.rule? = some .goto ↔
      (LineRecord.readTarget? record.body).isSome = true := by
    intro record hrecord
    obtain ⟨m, b, raw, _, hraw, rfl⟩ := Trace.exists_step_of_mem hrecord
    exact LineStep.rule?_eq_goto_iff (unbroken_of_mem_splitLines hraw)
  refine ⟨fun record hrecord => ?_, ?_⟩
  · rw [hjump record hrecord, Option.isSome_iff_exists]
  · refine JumpTally.foldlM_add? [] fun record hrecord hgoto => ?_
    rw [LineRecord.target?_of_goto hgoto]
    exact (hjump record hrecord).1 hgoto

end Seashell
