import Seashell.Assoc
import Seashell.Path
import Seashell.Text.LetterCase

set_option autoImplicit false

/-! # The table of converters

Which converter takes an input file is looked up by the extension of the file and by the kind of
output that is asked for. Neither depends on letter case, and a dot in front of an extension does
not count (`extensionKey`). A later entry for the same extension and kind takes the place of an
earlier one.

`ConverterTable.register` enters a `Maker`, `find` looks one up by a path, and `make` asks it for
its `Product`. A maker need not be able to make anything, and its product need not be a `Converter`:
nothing is asked when it is entered. What is wrong with the entries of a table is for `fault?` to
say, which goes through them in the order in which they came first. `pairs` and `kindsFor` list what
there is, in ascending order. `ConverterTable.standard` is the table that commands use. -/

namespace Seashell

/-- A converter of files. -/
inductive Converter where
  /-- Converts a script. -/
  | script
  /-- Re-encodes the files of a directory. -/
  | reencoding
deriving Repr, DecidableEq

/-- The name of a `Converter`. -/
def Converter.name : Converter → Text
  | .script => "ScriptTranspiler"
  | .reencoding => "EncodingConverter"

/-- What a `Maker` gives when it is asked. -/
inductive Product where
  | converter (c : Converter)
  /-- Something else, by the name of its kind. -/
  | other (kind : Text)
deriving Repr, DecidableEq

/-- The name of the kind of a `Product`. -/
def Product.name : Product → Text
  | .converter c => c.name
  | .other kind => kind

/-- An entry of a `ConverterTable`. -/
inductive Maker where
  | makes (product : Product)
  /-- The entry cannot make anything. -/
  | inert
deriving Repr, DecidableEq

/-- The entries by extension and kind, both in the order in which they came first. Extensions are
    there as `extensionKey` has them, and kinds in lower case. -/
structure ConverterTable where
  rows : List (Text × List (Text × Maker))
deriving Repr, DecidableEq

namespace ConverterTable

/-- Why a `ConverterTable` has no converter to give. -/
inductive Fault where
  /-- Nothing is known about the extension of a path. -/
  | noConverters (path : Text)
  /-- The extension is known, but not for this kind. -/
  | noConversion (extension kind : Text)
  /-- An entry cannot make anything. -/
  | inertEntry (extension kind : Text)
  /-- An entry makes something else than a converter. -/
  | noConverter (extension kind product : Text)
deriving Repr, DecidableEq

/-- The wording of a `Fault`. -/
def Fault.message : Fault → Text
  | .noConverters path => "No available converters for " ++ path
  | .noConversion extension kind => "No conversion from " ++ extension ++ " to " ++ kind
  | .inertEntry extension kind =>
    "Factory for " ++ extension ++ " -> " ++ kind ++ " is not callable"
  | .noConverter extension kind product =>
    "Factory for " ++ extension ++ " -> " ++ kind ++ " returned " ++ product ++ ", not a Converter"

/-- The table without entries. -/
def empty : ConverterTable := ⟨[]⟩

/-- The form in which extensions are compared: in lower case, with no dots in front. -/
def extensionKey (extension : Text) : Text := (Text.lower extension).dropWhile (· == '.')

/-- The entries for `extension`, by kind. -/
def kinds (t : ConverterTable) (extension : Text) : List (Text × Maker) :=
  (t.rows.lookup (extensionKey extension)).getD []

/-- Enters `maker` for an extension and a kind. -/
def register (t : ConverterTable) (extension kind : Text) (maker : Maker) : ConverterTable :=
  ⟨Assoc.put (extensionKey extension) (Assoc.put (Text.lower kind) maker (t.kinds extension)) t.rows⟩

/-- The order of `pairs`: by extension, then by kind. -/
def pairLe (a b : Text × Text) : Bool := decide (a.1 < b.1 ∨ a.1 = b.1 ∧ ¬ b.2 < a.2)

/-- The extensions and kinds of the entries, in the ascending order of `pairLe`. -/
def pairs (t : ConverterTable) : List (Text × Text) :=
  (t.rows.flatMap fun (e, ks) => ks.map fun (k, _) => (e, k)).mergeSort pairLe

/-- The kinds for `extension`, in ascending order. -/
def kindsFor (t : ConverterTable) (extension : Text) : List Text :=
  Text.sort ((t.kinds extension).map (·.1))

/-- The entry for a `path`, given as text, and a `kind`. -/
def find (t : ConverterTable) (path kind : Text) : Except Fault Maker :=
  match (Path.ofText path).extension? with
  | none => .error (.noConverters path)
  | some extension =>
    match t.rows.lookup (extensionKey extension) with
    | none => .error (.noConverters path)
    | some ks =>
      match ks.lookup (Text.lower kind) with
      | none => .error (.noConversion (extensionKey extension) (Text.lower kind))
      | some maker => .ok maker

/-- What the entry that `find` finds makes; `none` if it cannot make anything. -/
def make (t : ConverterTable) (path kind : Text) : Except Fault (Option Product) :=
  match t.find path kind with
  | .error f => .error f
  | .ok .inert => .ok none
  | .ok (.makes product) => .ok (some product)

/-! ## Health -/

/-- What is wrong with an entry, if its `Maker` makes no converter. -/
def entryFault? (extension kind : Text) : Maker → Option Fault
  | .inert => some (.inertEntry extension kind)
  | .makes (.other product) => some (.noConverter extension kind product)
  | .makes (.converter _) => none

/-- The first entry, in the order of the table, with an `entryFault?`. -/
def fault? (t : ConverterTable) : Option Fault :=
  t.rows.findSome? fun (e, ks) => ks.findSome? fun (k, maker) => entryFault? e k maker

/-! ## The standard table -/

/-- The extensions of files that can be re-encoded. -/
def reencodedExtensions : List Text :=
  ["sql".toList, "java".toList, "js".toList, "jsp".toList, "xhtml".toList, "html".toList, "txt".toList]

/-- The table with the script converter and, for all `reencodedExtensions`, the re-encoding. -/
def standard : ConverterTable :=
  reencodedExtensions.foldl (fun t e => t.register e "encoding" (.makes (.converter .reencoding)))
    (empty.register "csh" "sh" (.makes (.converter .script)))

end ConverterTable
end Seashell
