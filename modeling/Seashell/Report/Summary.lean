import Seashell.Report.Basic
import Seashell.Value.Display

set_option autoImplicit false

/-! # Printed reports

A report laid out for reading, in sections with aligned fields: the lines, the rules (`usageLines`),
the labels and jumps, what should be looked at, and the warnings (`warningLines`). Lists and sets
are shown as literals, and a word stands for one that is empty. `Report.summary` is the whole
text. -/

namespace Seashell.Report

open Text

/-- A line of equals signs. -/
def rule70 : Text := List.replicate 70 '='

/-- An answer to a question. -/
def yesNo (b : Bool) : Text := if b then "YES" else "NO"

/-- A list of texts, with its brackets, by `Value.literal`. -/
def listed (ts : List Text) : Text := (Value.texts ts).literal

/-- A list of numbers, or a word if it is empty. -/
def numbersOrNone (ns : List Int) : Text :=
  if ns.isEmpty then "None" else (Value.list (ns.map .int)).literal

/-- A set of texts, with its braces, or a word if it is empty. -/
def membersOrNone (ts : List Text) : Text :=
  if ts.isEmpty then "None" else "\x7b" ++ join ", " (ts.map Text.literal) ++ "\x7d"

/-- The lines about `ruleUsage`, if any rule was used. -/
def usageLines (r : Report) : List Text :=
  if r.ruleUsage.entries.isEmpty then []
  else ["  Rule Usage:".toList]
    ++ r.ruleUsage.entries.map (fun (name, n) => "    " ++ name ++ ": " ++ ofInt n ++ " line(s)")
    ++ [[]]

/-- The lines about the warnings of `r`. -/
def warningLines (r : Report) : List Text :=
  if r.warnings.isEmpty then ["✨ NO WARNINGS - Script looks clean!".toList]
  else "⚠️  WARNINGS".toList ::
    r.warnings.mapIdx fun i w => "  " ++ ofNat (i + 1) ++ ". " ++ w

/-- The lines of the printed report `r`. -/
def summaryLines (r : Report) : List Text :=
  [[], rule70, "SCRIPT ANALYSIS REPORT: " ++ r.scriptName, rule70, [],
    "📊 LINE INVENTORY".toList,
    "  Total Lines:           " ++ ofInt r.totalLines,
    "  Blank Lines:           " ++ ofInt r.blankLines,
    "  Header Dropped:        " ++ yesNo r.headerSuppressed,
    "  Converted Lines:       " ++ ofInt r.convertedLines,
    "  Unchanged Lines:       " ++ ofInt r.unchangedLines,
    "  Suppressed Lines:      " ++ ofInt r.suppressedLines,
    []]
  ++ r.usageLines
  ++ ["🔗 LABELS AND JUMPS".toList,
    "  Labels:                " ++ listed r.labels,
    "  goto Targets:          " ++ listed r.gotoTargets,
    "  Dynamic gotos:         " ++ ofInt r.dynamicGotos,
    "  Undefined Targets:     " ++ membersOrNone r.undefinedGotoTargets.toList,
    "  Nested Labels:         "
      ++ (if r.nestedLabels.isEmpty then "None".toList else listed r.nestedLabels),
    "  Open Block at End:     " ++ yesNo r.unclosedBlockAtEnd,
    [],
    "📐 CONDITIONS".toList,
    "  Compound Conditions:   " ++ numbersOrNone r.compoundConditionLines,
    "  Unconverted Flow:      " ++ numbersOrNone r.unconvertedControlFlowLines,
    "  Backtick Substitutions:" ++ ofInt r.backtickSubstitutions,
    []]
  ++ r.warningLines
  ++ [[]]

/-- The report `r` laid out for reading: its `summaryLines`. -/
def summary (r : Report) : Text := r.summaryLines.flatMap (· ++ ['\n'])

end Seashell.Report
