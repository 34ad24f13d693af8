import Seashell.Text.Basic

set_option autoImplicit false

/-! # Faults of YAML documents

A document that breaks the rules of the format is told from one that keeps them and still has no
value. The reader of `Seashell.Yaml.Reader` never gives `Yaml.Fault.foreign`: it stands for whatever
a reader that is not described here may fail with. -/

namespace Seashell.Yaml

/-- Why a document has no value. -/
inductive Fault where
  /-- The document breaks the rules of the format. -/
  | malformed
  /-- A scalar looks like a date, a number or a character but is none. -/
  | impossible
  /-- A number is larger than what it is needed for can be. -/
  | tooLarge
  /-- Lists and mappings are nested too deep. -/
  | tooDeep
  /-- A fault of another reader, by the name of its kind. -/
  | foreign (kind : Text)
deriving Repr, DecidableEq

end Seashell.Yaml
