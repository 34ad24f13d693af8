import Seashell.Json.Writer
import Seashell.Report.Analysis
import Seashell.Yaml.Writer

set_option autoImplicit false

/-! # Reports and traces as documents

A report is written as JSON or as YAML, and the records of a trace as YAML. All of them are first
turned into a `Value` (`Report.toValue`, `LineRecord.toValue`), which the writers of the two formats
render. How they are read again is said in `Seashell.Report.Reading`. -/

namespace Seashell

/-- The report as JSON, by `Json.render`. -/
def Report.toJson (r : Report) : Text := Json.render r.toValue

/-- The report as YAML, by `Yaml.render`. -/
def Report.toYaml (r : Report) : Text := Yaml.render r.toValue

/-- The record `r` of a trace as a document. -/
def LineRecord.toValue (r : LineRecord) : Value :=
  .record [("line".toList, .int r.number), ("source".toList, .text r.source),
    ("category".toList, .text r.category.name), ("output".toList, .texts r.output)]

/-- The records of a trace as a YAML document, a list of `LineRecord.toValue`. -/
def Trace.toYaml (t : Trace) : Text := Yaml.render (.list (t.records.map LineRecord.toValue))

end Seashell
