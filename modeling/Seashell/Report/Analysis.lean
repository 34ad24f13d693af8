import Seashell.Report.Basic
import Seashell.Trace

set_option autoImplicit false

/-! # Analysis

The report of a script is read off its trace: `Report.ofTrace` goes through the records that the
conversion has left, and the script is not read a second time. Each field is a count or a selection
over the records. What a record says is asked of it by itself: which rule has converted its line
(`rule?`), which label the line defines (`label?`), where it jumps to (`target?`), whether it states
a compound condition (`isCompound`), and whether it is control flow that no rule has converted
(`isUnconvertedFlow`).

`Report.ofScript` adds the warnings, which follow from the fields (`Report.warningsOf`). -/

namespace Seashell

open Text

namespace LineRecord

/-- The line of the record `r` without its indentation. -/
def body (r : LineRecord) : Text := trimStart r.source

/-- The rule that converted the line, if it is neither blank nor an interpreter line. -/
def rule? (r : LineRecord) : Option Rule :=
  match r.category with
  | .rule rule => some rule
  | _ => none

/-- The line went through the rules (`rule?`). -/
def isRuled (r : LineRecord) : Bool := r.rule?.isSome

/-- The label that the line defines: what stands before the colons at its end. -/
def label? (r : LineRecord) : Option Text :=
  if r.rule? = some .label then some ((trimEnd r.body).reverse.dropWhile (· == ':')).reverse
  else none

/-- The `label?` that the line defines, if it is indented. -/
def nestedLabel? (r : LineRecord) : Option Text :=
  if (blanks r.source).isEmpty then none else r.label?

/-- The target of the jump that the line makes: the word behind `goto`. -/
def target? (r : LineRecord) : Option Text :=
  if r.rule? = some .goto then
    (((after? "goto" r.body).bind gap?).bind (run? (!isBlank ·))).map (·.1)
  else none

/-- The `target` of a jump is known only at run time. -/
def isDynamic (target : Text) : Bool := target.head? == some '$'

/-- The body `s` begins with `keyword` as a whole word. -/
def hasKeyword (keyword s : Text) : Bool := ((after? keyword s).map wordEnds).getD false

/-- The body begins with `else if` as whole words. -/
def hasElseIf (s : Text) : Bool :=
  (((after? "else" s).bind gap?).map (hasKeyword "if")).getD false

/-- The line states a condition that combines comparisons, by `Condition.isCompound`. -/
def isCompound (r : LineRecord) : Bool :=
  r.isRuled && (hasElseIf r.body || hasKeyword "if" r.body || hasKeyword "while" r.body)
    && Condition.isCompound r.body

/-- The line begins with a keyword of control flow, but no rule converted it. -/
def isUnconvertedFlow (r : LineRecord) : Bool :=
  r.rule? == some .passthrough
    && (hasKeyword "if" r.body || hasElseIf r.body || hasKeyword "while" r.body
      || hasKeyword "foreach" r.body || hasKeyword "switch" r.body)

end LineRecord

namespace Report

/-- How often each rule occurs among some rules, by `Rule.name`. -/
def countRules (rules : List Rule) : TextMap Int :=
  rules.foldl (fun m r => m.insert r.name ((m.get? r.name).getD 0 + 1)) .empty

/-- Numbers of lines as a list in words. -/
def lineNumbers (ns : List Int) : Text := join ", " (ns.map ofInt)

/-- The warnings that follow from the other fields of `r`. -/
def warningsOf (r : Report) : List Text :=
  let when (present : Bool) (message : Text) : List Text := if present then [message] else []
  when (!r.undefinedGotoTargets.toList.isEmpty)
      ("goto targets without a label: " ++ join ", " r.undefinedGotoTargets.toList)
    ++ when (!r.nestedLabels.isEmpty)
      ("Labels nested inside other blocks (jumps into them are not supported): "
        ++ join ", " r.nestedLabels)
    ++ when (r.dynamicGotos != 0)
      ("Dynamic goto used " ++ ofInt r.dynamicGotos ++ " time(s); targets cannot be checked")
    ++ when (!r.compoundConditionLines.isEmpty)
      ("Compound conditions need manual review on lines: " ++ lineNumbers r.compoundConditionLines)
    ++ when (!r.unconvertedControlFlowLines.isEmpty)
      ("Control flow left unconverted on lines: " ++ lineNumbers r.unconvertedControlFlowLines)

/-- The report of the trace `t`, without its warnings. -/
def ofTrace (name : Text) (t : Trace) : Report :=
  let ruled := t.records.filter (·.isRuled)
  let written := ruled.filter fun r => !r.output.isEmpty
  let labels := t.records.filterMap (·.label?)
  let targets := t.records.filterMap (·.target?)
  let fixed := (targets.filter (!LineRecord.isDynamic ·)).eraseDups
  { scriptName := name
    totalLines := t.records.length
    blankLines := t.records.countP (·.category = .blank)
    headerSuppressed := t.records.any (·.category = .interpreter)
    convertedLines := written.countP (·.changed)
    unchangedLines := written.countP (!·.changed)
    suppressedLines := ruled.countP (·.output.isEmpty)
    ruleUsage := countRules (t.records.filterMap (·.rule?))
    labels := labels
    gotoTargets := fixed
    dynamicGotos := targets.countP LineRecord.isDynamic
    undefinedGotoTargets := .ofList (fixed.filter (!labels.contains ·))
    nestedLabels := t.records.filterMap (·.nestedLabel?)
    unclosedBlockAtEnd := t.block = .opened
    compoundConditionLines := (t.records.filter (·.isCompound)).map (·.number)
    unconvertedControlFlowLines := (t.records.filter (·.isUnconvertedFlow)).map (·.number)
    backtickSubstitutions := (ruled.flatMap fun r => Substitution.commands r.body).length }

/-- The report of a script: that of its trace, with `warningsOf`. -/
def ofScript (name script : Text) : Report :=
  let r := ofTrace name (Trace.ofLines .closed (splitLines script))
  { r with warnings := r.warningsOf }

end Report
end Seashell
