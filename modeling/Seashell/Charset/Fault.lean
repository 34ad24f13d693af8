import Seashell.Text.Decimal
import Seashell.Text.Literal

set_option autoImplicit false

/-! # Bytes and faults of character encodings

Files hold `Bytes`. A character encoding turns bytes into text and text into bytes, and fails with a
`Charset.Fault` at the first place that it cannot represent. The encodings that are described here
word their faults by the codec, the place and a `Charset.Defect`; those of any other encoding
(`Charset.Fault.foreign`) are known by their wording alone. -/

namespace Seashell

/-- The content of a file. -/
abbrev Bytes := List UInt8

namespace Charset

/-- What is wrong at a place that `Fault` points to. -/
inductive Defect where
  | invalidStart
  | invalidContinuation
  | unexpectedEnd
  | notAscii
  | notLatin
  | undefined
  | truncated
  | illegalEncoding
  | illegalSurrogate
  | surrogateRange
  | outOfRange
deriving Repr, DecidableEq

/-- The wording of a `Defect`. -/
def Defect.text : Defect → Text
  | .invalidStart => "invalid start byte"
  | .invalidContinuation => "invalid continuation byte"
  | .unexpectedEnd => "unexpected end of data"
  | .notAscii => "ordinal not in range(128)"
  | .notLatin => "ordinal not in range(256)"
  | .undefined => "character maps to <undefined>"
  | .truncated => "truncated data"
  | .illegalEncoding => "illegal encoding"
  | .illegalSurrogate => "illegal UTF-16 surrogate"
  | .surrogateRange => "code point in surrogate code point range(0xd800, 0xe000)"
  | .outOfRange => "code point not in range(0x110000)"

/-- Why bytes or a text cannot be converted. -/
inductive Fault where
  /-- The bytes from `start` up to before `stop`, of which `first` is the first, are no text. -/
  | undecodable (codec : Text) (start stop : Nat) (first : UInt8) (defect : Defect)
  /-- The characters from `start` up to before `stop`, of which `first` is the first, have no
      bytes. -/
  | unencodable (codec : Text) (start stop : Nat) (first : Char) (defect : Defect)
  /-- The bytes do not say in which order the parts of a unit of `bits` bits come. -/
  | noByteOrder (bits : Nat)
  /-- The fault of an encoding that is not described here, by its `message`. -/
  | foreign (message : Text)
deriving Repr, DecidableEq

/-- The wording of a `Fault`. -/
def Fault.message : Fault → Text
  | .undecodable codec start stop first defect =>
    "'" ++ codec ++ "' codec can't decode " ++
      (if stop = start + 1 then
        "byte 0x" ++ Text.hexLower 2 first.toNat ++ " in position " ++ Text.ofNat start
      else "bytes in position " ++ Text.ofNat start ++ "-" ++ Text.ofNat (stop - 1))
      ++ ": " ++ defect.text
  | .unencodable codec start stop first defect =>
    "'" ++ codec ++ "' codec can't encode " ++
      (if stop = start + 1 then
        "character '" ++ Text.codePointEscape first ++ "' in position " ++ Text.ofNat start
      else "characters in position " ++ Text.ofNat start ++ "-" ++ Text.ofNat (stop - 1))
      ++ ": " ++ defect.text
  | .noByteOrder bits => "UTF-" ++ Text.ofNat bits ++ " stream does not start with BOM"
  | .foreign message => message

/-- Puts `c` in front of a decoded text. -/
def andThen (c : Char) (rest : Except Fault Text) : Except Fault Text := rest.map (c :: ·)

end Charset
end Seashell
