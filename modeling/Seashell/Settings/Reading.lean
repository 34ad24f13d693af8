import Seashell.Settings
import Seashell.Value.Display

set_option autoImplicit false

/-! # Reading settings

Settings are read from a mapping of their names. A missing name leaves the standard setting, and any
value stands for its text.

What a file of settings holds is read by a reader of documents that is no part of this library, and
its values may be of kinds that are not described here. So settings depend on a document only as far
as a `Settings.Document` goes: whether there is anything in it at all, which of its keys are texts,
and how its values are written. `Settings.ofDocument` reads settings from that, and
`Settings.ofValue` from a value of this library, by way of `Settings.Document.ofValue`. -/

namespace Seashell

/-- Null, false, zero, or without content. -/
def Value.isNothing : Value → Bool
  | .null => true
  | .bool b => !b
  | .int n => n == 0
  | .float x => x == 0.0
  | .text t => t.isEmpty
  | .list vs => vs.isEmpty
  | .mapping es => es.isEmpty
  | _ => false

/-- The text that a value is; `none` for any other kind of value. -/
def Value.text? : Value → Option Text
  | .text t => some t
  | _ => none

/-- The name of the kind of a value. -/
def Value.kindName : Value → Text
  | .null => "NoneType"
  | .bool _ => "bool"
  | .int _ => "int"
  | .float _ => "float"
  | .text _ => "str"
  | .date _ => "date"
  | .moment _ => "datetime"
  | .list _ => "list"
  | .mapping _ => "dict"

namespace Settings

/-- Why a `Document` does not hold settings. -/
inductive Fault where
  /-- The value is no mapping. -/
  | notMapping (kind : Text)
  /-- Names of no setting, in ascending order. -/
  | unknownKeys (keys : List Text)
  /-- A key of no setting is not even a name. -/
  | unnamedKey
  /-- A value cannot be written: there is an integer with too many digits in it. -/
  | unwritable
deriving Repr, DecidableEq

/-- The wording of a `Fault` of the names; the other faults have none. -/
def Fault.message? : Fault → Option Text
  | .notMapping kind => some ("Configuration must be a mapping, got " ++ kind)
  | .unknownKeys keys => some ("Unknown configuration keys: " ++ Text.join ", " keys)
  | .unnamedKey => none
  | .unwritable => none

/-- The names of the settings, as a `Document` has them. -/
def keys : List Text := ["source_extension".toList, "target_extension".toList,
  "interpreter_header".toList, "encoding".toList]

/-- What settings depend on in a document, whoever has read it. -/
inductive Document where
  /-- Null, false, zero, or without content. -/
  | nothing
  /-- For each entry the key, if it is a text, and the text of the value, if it can be written. -/
  | mapping (entries : List (Option Text × Option Text))
  /-- Anything else, with the name of its kind. -/
  | other (kind : Text)
deriving Repr, DecidableEq

/-- The value `v`, as settings depend on it. -/
def Document.ofValue (v : Value) : Document :=
  if v.isNothing then .nothing
  else match v with
    | .mapping entries =>
      .mapping (entries.map fun e => (e.1.text?, if e.2.isWritable then some e.2.display else none))
    | _ => .other v.kindName

/-- The key names a setting: it is one of `keys`. -/
def isKey : Option Text → Bool
  | some t => keys.contains t
  | none => false

/-- The settings from the texts that `text?` has under their names. -/
def ofTexts (text? : Text → Option Text) : Settings where
  sourceExtension :=
    ((text? "source_extension").map Extension.ofText).getD standard.sourceExtension
  targetExtension :=
    ((text? "target_extension").map Extension.ofText).getD standard.targetExtension
  interpreterLine := (text? "interpreter_header").getD standard.interpreterLine
  encoding := (text? "encoding").getD standard.encoding

/-- Reads settings from a `Document`. The keys are looked at before the values. -/
def ofDocument : Document → Except Fault Settings
  | .nothing => .ok standard
  | .other kind => .error (.notMapping kind)
  | .mapping entries =>
    let unknown := (entries.map (·.1)).filter (!isKey ·)
    if unknown.contains none then .error .unnamedKey
    else if !unknown.isEmpty then .error (.unknownKeys (Text.sort (unknown.filterMap id)))
    else if entries.any (·.2.isNone) then .error .unwritable
    else .ok (ofTexts fun name => (entries.lookup (some name)).join)

/-- Reads settings from the value `v`, by `ofDocument`. -/
def ofValue (v : Value) : Except Fault Settings := ofDocument (.ofValue v)

/-- The settings `s` as a mapping. -/
def toValue (s : Settings) : Value :=
  .record [("source_extension".toList, .text s.sourceExtension.text),
    ("target_extension".toList, .text s.targetExtension.text),
    ("interpreter_header".toList, .text s.interpreterLine), ("encoding".toList, .text s.encoding)]

end Settings

/-! ## Settings by name -/

/-- Settings that are given by name and not read: what is written into files may be any value. -/
structure GivenSettings where
  sourceExtension : Extension := Settings.standard.sourceExtension
  targetExtension : Extension := Settings.standard.targetExtension
  interpreterLine : Value := .text Settings.standard.interpreterLine
  encoding : Value := .text Settings.standard.encoding

namespace GivenSettings

/-- Why `GivenSettings` cannot be given. -/
inductive Fault where
  /-- A name is that of no setting. -/
  | unknownName
  /-- An extension is no text. -/
  | notText
deriving Repr, DecidableEq

/-- The extension under `name` in `v`, or the `standard` one. -/
def extension (v : Value) (name : Text) (standard : Extension) : Except Fault Extension :=
  match v.field? name with
  | none => .ok standard
  | some (.text t) => .ok (.ofText t)
  | some _ => .error .notText

/-- The settings from the values of the mapping `v`. -/
def ofValue (v : Value) : Except Fault GivenSettings := do
  match v with
  | .mapping entries => if !entries.all (fun e => Settings.isKey e.1.text?) then throw .unknownName
  | _ => throw .unknownName
  let standard : GivenSettings := {}
  return {
    sourceExtension := ← extension v "source_extension" standard.sourceExtension
    targetExtension := ← extension v "target_extension" standard.targetExtension
    interpreterLine := (v.field? "interpreter_header").getD standard.interpreterLine
    encoding := (v.field? "encoding").getD standard.encoding }

/-- The settings `g` as a mapping. -/
def toValue (g : GivenSettings) : Value :=
  .record [("source_extension".toList, .text g.sourceExtension.text),
    ("target_extension".toList, .text g.targetExtension.text),
    ("interpreter_header".toList, g.interpreterLine), ("encoding".toList, g.encoding)]

/-- The `Settings`, if they are what conversions need: what is written into files is given as
    text. -/
def settings? (g : GivenSettings) : Option Settings :=
  match g.interpreterLine, g.encoding with
  | .text interpreterLine, .text encoding =>
    some { sourceExtension := g.sourceExtension, targetExtension := g.targetExtension,
           interpreterLine, encoding }
  | _, _ => none

end GivenSettings
end Seashell
