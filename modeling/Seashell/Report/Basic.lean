import Seashell.Text.Ordered
import Seashell.Value.Basic

set_option autoImplicit false

/-! # Reports

A `Report` is the inventory of a script: how many lines there are of each kind, which rules convert
them, the labels and jumps, and what should be looked at by hand. It is made by `Report.ofScript`.
`Report.toValue` is the document that holds it, with the names of the fields in alphabetical order,
from which JSON and YAML are written. Sets of texts and maps of counts are kept in ascending order
(`TextSet`, `TextMap`), so that there is one document for one report. -/

namespace Seashell

/-- The inventory of a script. Counts are integers, as in the documents that hold reports. -/
structure Report where
  scriptName : Text
  totalLines : Int := 0
  blankLines : Int := 0
  headerSuppressed : Bool := false
  convertedLines : Int := 0
  unchangedLines : Int := 0
  suppressedLines : Int := 0
  /-- How many lines each rule converts. -/
  ruleUsage : TextMap Int := .empty
  labels : List Text := []
  gotoTargets : List Text := []
  dynamicGotos : Int := 0
  undefinedGotoTargets : TextSet := .empty
  nestedLabels : List Text := []
  unclosedBlockAtEnd : Bool := false
  compoundConditionLines : List Int := []
  unconvertedControlFlowLines : List Int := []
  backtickSubstitutions : Int := 0
  warnings : List Text := []
deriving DecidableEq

namespace Report

/-- The report as a document, its fields in alphabetical order. -/
def toValue (r : Report) : Value :=
  .record [
    ("backtick_substitutions".toList, .int r.backtickSubstitutions),
    ("blank_lines".toList, .int r.blankLines),
    ("compound_condition_lines".toList, .list (r.compoundConditionLines.map .int)),
    ("converted_lines".toList, .int r.convertedLines),
    ("dynamic_gotos".toList, .int r.dynamicGotos),
    ("goto_targets".toList, .texts r.gotoTargets),
    ("header_suppressed".toList, .bool r.headerSuppressed),
    ("labels".toList, .texts r.labels),
    ("nested_labels".toList, .texts r.nestedLabels),
    ("rule_usage".toList, .record (r.ruleUsage.entries.map fun (k, n) => (k, .int n))),
    ("script_name".toList, .text r.scriptName),
    ("suppressed_lines".toList, .int r.suppressedLines),
    ("total_lines".toList, .int r.totalLines),
    ("unchanged_lines".toList, .int r.unchangedLines),
    ("unclosed_block_at_end".toList, .bool r.unclosedBlockAtEnd),
    ("unconverted_control_flow_lines".toList, .list (r.unconvertedControlFlowLines.map .int)),
    ("undefined_goto_targets".toList, .texts r.undefinedGotoTargets.toList),
    ("warnings".toList, .texts r.warnings)]

end Report
end Seashell
