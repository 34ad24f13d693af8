import Seashell.Charset.Fault

set_option autoImplicit false

/-! # Codecs

Files hold bytes, and programs read and write texts. How one becomes the other is no part of this
library: whatever works on files takes the encodings of the system as a parameter, and what is
proved of it holds for all of them.

A `Codec` is an encoding of text as it is seen from a program that reads and writes files. A file is
read as a whole (`Codec.decode`), or line by line (`Codec.readLines`), where some lines may have
been read before a fault is met. It is written text by text, and what a text adds to a file may
depend on those before it (`Codec.encode`): some encodings put a mark in front of the first one
only.

`Codecs` are the encodings of a system by name. `Codecs.text?` is what becomes of a name when a file
is opened, and `Codecs.ownName?` is how the system itself calls an encoding, which need not be one
of text. `Charset.codecs` are the codecs with which the program is run. -/

namespace Seashell

/-- What is read from a file line by line: the lines up to where the reading fails, if it does. A
    line ends with a line feed, but for a last one without a terminator. -/
structure Codec.Reading where
  lines : List Text
  fault : Option Charset.Fault
deriving Repr, DecidableEq

/-- The bytes that wait to be written, before any of them reaches a file. -/
def Codec.bufferSize : Nat := 8192

/-- An encoding of text, as a program reads and writes files in it. -/
structure Codec where
  /-- The text of a whole content. -/
  decode : Bytes → Except Charset.Fault Text
  /-- The lines of a content, read one after the other. -/
  readLines : Bytes → Codec.Reading
  /-- The bytes that a text adds to a file into which the texts `before` it have been written. -/
  encode : (before : List Text) → Text → Except Charset.Fault Bytes
  /-- The lines that are read from a file while it is written, if it held nothing before and `lead`
      is written when the reading begins. They are lines of what is written, as far as it reaches
      the file. -/
  readBack : (lead : Bytes) → Codec.Reading
  /-- What does not fill the buffer of `bufferSize` bytes does not reach the file, where then
      nothing is to be read. -/
  readBack_eq : ∀ lead, lead.length < Codec.bufferSize → readBack lead = readLines []

namespace Codec

/-- Texts that `writeAll` wrote one after the other: the bytes up to where the writing fails, if it
    does. -/
structure Writing where
  bytes : Bytes
  fault : Option Charset.Fault
deriving Repr, DecidableEq

/-- Writes texts one after the other into a file that holds those `before`. -/
def writeAll (codec : Codec) (before : List Text) : List Text → Writing
  | [] => ⟨[], none⟩
  | t :: rest =>
    match codec.encode before t with
    | .error f => ⟨[], some f⟩
    | .ok bytes =>
      let later := codec.writeAll (before ++ [t]) rest
      ⟨bytes ++ later.bytes, later.fault⟩

end Codec

/-- The encodings of a system by name. -/
structure Codecs where
  /-- The encoding of text that a file has if it is opened by a name. -/
  text? : Text → Option Codec
  /-- The name by which the system itself calls an encoding, or another transformation of bytes that
      `text?` does not know. -/
  ownName? : Text → Option Text
  /-- The system's own name of an encoding holds no NUL character, so that `isNamable` has it. -/
  ownName?_clean : ∀ {name own}, ownName? name = some own → '\x00' ∉ own
  /-- The system's own name of an encoding stands for the same one. -/
  text?_ownName? : ∀ {name own}, ownName? name = some own → text? own = text? name

namespace Codecs

/-- The text can be asked for as a name: it holds no NUL character. -/
def isNamable (name : Text) : Bool := !name.contains '\x00'

end Codecs
end Seashell
