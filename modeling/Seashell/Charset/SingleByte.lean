import Seashell.Charset.Fault

set_option autoImplicit false

/-! # Encodings of one byte per character

ASCII, Latin-1 and Windows-1252. Each is a `SingleByte`: a table from bytes to characters and its
reverse, and what is said of a byte or character that is not in it. `SingleByte.decodeFrom` and
`SingleByte.encodeFrom` go through a content or a text with such a table, and differ in one point: a
byte without a character is a fault by itself, while a fault of encoding covers all characters in a
row that have no byte.

Positions are counted on from a given one, so that what is said of the rest of a content is said of
it where it stands. -/

namespace Seashell.Charset

/-- An encoding of one byte per character. -/
structure SingleByte where
  /-- The name in messages. -/
  codec : Text
  toChar : UInt8 → Option Char
  ofChar : Char → Option UInt8
  /-- What is wrong with a byte or character that is not in the table. -/
  defect : Defect

namespace SingleByte

/-- The text of some bytes, of which the first has the position `pos`. -/
def decodeFrom (s : SingleByte) : Nat → Bytes → Except Fault Text
  | _, [] => .ok []
  | pos, b :: bs =>
    match s.toChar b with
    | some c => andThen c (s.decodeFrom (pos + 1) bs)
    | none => .error (.undecodable s.codec pos (pos + 1) b s.defect)

/-- The bytes of a text, of which the first character has the position `pos`. A fault covers all
    characters in a row for which `ofChar` has no byte. -/
def encodeFrom (s : SingleByte) : Nat → Text → Except Fault Bytes
  | _, [] => .ok []
  | pos, c :: cs =>
    match s.ofChar c with
    | some b => (s.encodeFrom (pos + 1) cs).map (b :: ·)
    | none =>
      let more := cs.takeWhile fun d => (s.ofChar d).isNone
      .error (.unencodable s.codec pos (pos + 1 + more.length) c s.defect)

/-! ## The tables -/

/-- ASCII: the bytes below `80`. -/
def ascii : SingleByte where
  codec := "ascii"
  toChar b := if b.toNat < 0x80 then some (Char.ofNat b.toNat) else none
  ofChar c := if c.toNat < 0x80 then some (UInt8.ofNat c.toNat) else none
  defect := .notAscii

/-- Latin-1: every byte is the code point of its character. -/
def latin1 : SingleByte where
  codec := "latin-1"
  toChar b := some (Char.ofNat b.toNat)
  ofChar c := if c.toNat < 0x100 then some (UInt8.ofNat c.toNat) else none
  defect := .notLatin

/-- The code points of the bytes from `80` to `9F` in Windows-1252; zero where there is none. -/
def windowsTable : List Nat :=
  [0x20AC, 0, 0x201A, 0x0192, 0x201E, 0x2026, 0x2020, 0x2021, 0x02C6, 0x2030, 0x0160, 0x2039, 0x0152,
    0, 0x017D, 0, 0, 0x2018, 0x2019, 0x201C, 0x201D, 0x2022, 0x2013, 0x2014, 0x02DC, 0x2122, 0x0161,
    0x203A, 0x0153, 0, 0x017E, 0x0178]

/-- The character of a byte in Windows-1252, by `windowsTable` where it is not that of Latin-1. -/
def windowsChar (b : UInt8) : Option Char :=
  let n := b.toNat
  if 0x80 ≤ n ∧ n < 0xA0 then
    match windowsTable[n - 0x80]? with
    | some m => if m = 0 then none else some (Char.ofNat m)
    | none => none
  else some (Char.ofNat n)

/-- The byte of a character in Windows-1252; it undoes `windowsChar`. -/
def windowsByte (c : Char) : Option UInt8 :=
  let n := c.toNat
  if n < 0x80 ∨ (0xA0 ≤ n ∧ n < 0x100) then some (UInt8.ofNat n)
  else if n = 0 then none
  else (windowsTable.idxOf? n).map fun i => UInt8.ofNat (0x80 + i)

/-- Windows-1252, by `windowsChar` and `windowsByte`. -/
def windows1252 : SingleByte where
  codec := "charmap"
  toChar := windowsChar
  ofChar := windowsByte
  defect := .undefined

end SingleByte
end Seashell.Charset
