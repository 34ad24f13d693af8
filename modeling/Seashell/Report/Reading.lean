import Seashell.Json.Reader
import Seashell.Report.Document
import Seashell.Value.Coerce
import Seashell.Yaml.Reader

set_option autoImplicit false

/-! # Reading reports

A report is read back from a document in which any field may be missing or may hold any value. What
is read is a `ReportDocument`: it keeps single values as they are and takes lists, sets and mappings
as such, by the coercions of `Seashell.Value.Coerce`. So a document that was never a report may be
read, and only one that does not have the kinds of values is refused, with a `Mismatch`.

`ReportDocument.ofReport` is a report in that form, `ReportDocument.same` says when two of them are
equal, and `ReportDocument.toValue` makes a document of one again. `RecordDocument` does the same
for the records of a trace, of which no field may be missing. `ofJson` and `ofYaml` read texts. -/

namespace Seashell

/-! ## Reports -/

/-- A report as `ofValue` reads it from a document. -/
structure ReportDocument where
  scriptName : Value
  totalLines : Value
  blankLines : Value
  headerSuppressed : Value
  convertedLines : Value
  unchangedLines : Value
  suppressedLines : Value
  ruleUsage : List (Value × Value)
  labels : List Value
  gotoTargets : List Value
  dynamicGotos : Value
  /-- The members of a set. -/
  undefinedGotoTargets : List Value
  nestedLabels : List Value
  unclosedBlockAtEnd : Value
  compoundConditionLines : List Value
  unconvertedControlFlowLines : List Value
  backtickSubstitutions : Value
  warnings : List Value

namespace ReportDocument

/-- Reads a report from the value `v`, a mapping of which every key may be missing. -/
def ofValue (v : Value) : Except Mismatch ReportDocument := do
  let entries ← match v with
    | .mapping es => pure es
    | _ => throw .notMapping
  let field (name : String) (absent : Value) : Value :=
    (Value.lookup? (.text name.toList) entries).getD absent
  let items (name : String) : Except Mismatch (List Value) := (field name (.list [])).toItems
  let ruleUsage ← (field "rule_usage" (.mapping [])).toEntries
  let labels ← items "labels"
  let gotoTargets ← items "goto_targets"
  let undefinedGotoTargets ← (field "undefined_goto_targets" (.list [])).toMembers
  let nestedLabels ← items "nested_labels"
  let compoundConditionLines ← items "compound_condition_lines"
  let unconvertedControlFlowLines ← items "unconverted_control_flow_lines"
  let warnings ← items "warnings"
  return {
    scriptName := field "script_name" (.text [])
    totalLines := field "total_lines" (.int 0)
    blankLines := field "blank_lines" (.int 0)
    headerSuppressed := field "header_suppressed" (.bool false)
    convertedLines := field "converted_lines" (.int 0)
    unchangedLines := field "unchanged_lines" (.int 0)
    suppressedLines := field "suppressed_lines" (.int 0)
    ruleUsage, labels, gotoTargets
    dynamicGotos := field "dynamic_gotos" (.int 0)
    undefinedGotoTargets, nestedLabels
    unclosedBlockAtEnd := field "unclosed_block_at_end" (.bool false)
    compoundConditionLines, unconvertedControlFlowLines
    backtickSubstitutions := field "backtick_substitutions" (.int 0)
    warnings }

/-- The report as a document again; the undefined targets need an order, by `Value.sort`. -/
def toValue (r : ReportDocument) : Except Mismatch Value := do
  let undefinedGotoTargets ← Value.sort r.undefinedGotoTargets
  return .record [
    ("backtick_substitutions".toList, r.backtickSubstitutions),
    ("blank_lines".toList, r.blankLines),
    ("compound_condition_lines".toList, .list r.compoundConditionLines),
    ("converted_lines".toList, r.convertedLines),
    ("dynamic_gotos".toList, r.dynamicGotos),
    ("goto_targets".toList, .list r.gotoTargets),
    ("header_suppressed".toList, r.headerSuppressed),
    ("labels".toList, .list r.labels),
    ("nested_labels".toList, .list r.nestedLabels),
    ("rule_usage".toList, .mapping r.ruleUsage),
    ("script_name".toList, r.scriptName),
    ("suppressed_lines".toList, r.suppressedLines),
    ("total_lines".toList, r.totalLines),
    ("unchanged_lines".toList, r.unchangedLines),
    ("unclosed_block_at_end".toList, r.unclosedBlockAtEnd),
    ("unconverted_control_flow_lines".toList, .list r.unconvertedControlFlowLines),
    ("undefined_goto_targets".toList, .list undefinedGotoTargets),
    ("warnings".toList, .list r.warnings)]

/-- A `Report` in the form in which it is read. -/
def ofReport (r : Report) : ReportDocument where
  scriptName := .text r.scriptName
  totalLines := .int r.totalLines
  blankLines := .int r.blankLines
  headerSuppressed := .bool r.headerSuppressed
  convertedLines := .int r.convertedLines
  unchangedLines := .int r.unchangedLines
  suppressedLines := .int r.suppressedLines
  ruleUsage := r.ruleUsage.entries.map fun (k, n) => (.text k, .int n)
  labels := r.labels.map .text
  gotoTargets := r.gotoTargets.map .text
  dynamicGotos := .int r.dynamicGotos
  undefinedGotoTargets := r.undefinedGotoTargets.toList.map .text
  nestedLabels := r.nestedLabels.map .text
  unclosedBlockAtEnd := .bool r.unclosedBlockAtEnd
  compoundConditionLines := r.compoundConditionLines.map .int
  unconvertedControlFlowLines := r.unconvertedControlFlowLines.map .int
  backtickSubstitutions := .int r.backtickSubstitutions
  warnings := r.warnings.map .text

/-- Adds the warning `w`, unless the report has it. -/
def addWarning (r : ReportDocument) (w : Value) : ReportDocument :=
  { r with warnings := Value.addMember r.warnings w }

/-- The sets `as` and `bs` have the same members. -/
def sameMembers (as bs : List Value) : Bool :=
  as.length == bs.length && as.all fun a => bs.any (Value.same a)

/-- The reports `a` and `b` are equal; the order of usage entries and of undefined targets does not
    count. -/
def same (a b : ReportDocument) : Bool :=
  Value.same a.scriptName b.scriptName && Value.same a.totalLines b.totalLines
    && Value.same a.blankLines b.blankLines && Value.same a.headerSuppressed b.headerSuppressed
    && Value.same a.convertedLines b.convertedLines && Value.same a.unchangedLines b.unchangedLines
    && Value.same a.suppressedLines b.suppressedLines
    && Value.same (.mapping a.ruleUsage) (.mapping b.ruleUsage)
    && Value.sameItems a.labels b.labels && Value.sameItems a.gotoTargets b.gotoTargets
    && Value.same a.dynamicGotos b.dynamicGotos
    && sameMembers a.undefinedGotoTargets b.undefinedGotoTargets
    && Value.sameItems a.nestedLabels b.nestedLabels
    && Value.same a.unclosedBlockAtEnd b.unclosedBlockAtEnd
    && Value.sameItems a.compoundConditionLines b.compoundConditionLines
    && Value.sameItems a.unconvertedControlFlowLines b.unconvertedControlFlowLines
    && Value.same a.backtickSubstitutions b.backtickSubstitutions
    && Value.sameItems a.warnings b.warnings

end ReportDocument

/-- Why a report cannot be read from a text. -/
inductive ReadFault where
  /-- The text is no JSON document that can be read. -/
  | json (f : Json.Fault)
  /-- The text is no YAML document that can be read. -/
  | yaml (f : Yaml.Fault)
  /-- The document does not hold a report. -/
  | mismatch (m : Mismatch)
deriving Repr, DecidableEq

namespace ReportDocument

/-- Reads a report from a value by `ofValue`, for a reader of texts. -/
def ofDocument (v : Value) : Except ReadFault ReportDocument := (ofValue v).mapError .mismatch

/-- Reads a report from JSON, by `Json.parse`. -/
def ofJson (s : Text) : Except ReadFault ReportDocument :=
  match Json.parse s with
  | .ok v => ofDocument v
  | .error f => .error (.json f)

/-- Reads a report from YAML, by `Yaml.parse`. -/
def ofYaml (s : Text) : Except ReadFault ReportDocument :=
  match Yaml.parse s with
  | .ok v => ofDocument v
  | .error f => .error (.yaml f)

/-- The report as YAML, by `Yaml.render`. -/
def toYaml (r : ReportDocument) : Except ReadFault Text :=
  match r.toValue with
  | .ok v => .ok (Yaml.render v)
  | .error m => .error (.mismatch m)

end ReportDocument

/-! ## Records of a trace -/

/-- A record of a trace as `ofValue` reads it from a document. -/
structure RecordDocument where
  number : Value
  source : Value
  category : Value
  output : List Value

namespace RecordDocument

/-- Reads a record from the value `v`, a mapping with all of its keys. -/
def ofValue (v : Value) : Except Mismatch RecordDocument := do
  let entries ← match v with
    | .mapping es => pure es
    | _ => throw .wrongKind
  let field (name : String) : Except Mismatch Value :=
    match Value.lookup? (.text name.toList) entries with
    | some w => .ok w
    | none => .error (.missing name.toList)
  let number ← field "line"
  let source ← field "source"
  let category ← field "category"
  let output ← ((Value.lookup? (.text "output") entries).getD (.list [])).toItems
  return ⟨number, source, category, output⟩

/-- The record as a document again. -/
def toValue (r : RecordDocument) : Value :=
  .record [("line".toList, r.number), ("source".toList, r.source),
    ("category".toList, r.category), ("output".toList, .list r.output)]

/-- Something else than the line itself was written: the `output` is not the `source` alone. -/
def changed (r : RecordDocument) : Bool := !Value.sameItems r.output [r.source]

end RecordDocument
end Seashell
