import Seashell.Charset.Fault

set_option autoImplicit false

/-! # UTF-16 and UTF-32

Encodings by units of two or four bytes, in one of two orders (`ByteOrder`). `Utf16` has one unit
for most characters and a pair of surrogates for the rest; `Utf32` has one unit for each.

Without a fixed order, a byte order mark in front says which one it is (`Utf16.decodeMarked`,
`Utf32.decodeMarked`). A content that has no mark is read in the little order, and whatever is found
in it is then refused: what is lacking is the order. As in the other encodings, `decodeFrom` counts
positions on from a given one. -/

namespace Seashell.Charset

/-- The order of the bytes of a unit. -/
inductive ByteOrder where
  | little
  | big
deriving Repr, DecidableEq

/-- The bytes of a unit `n` of two bytes. -/
def ByteOrder.bytes16 (o : ByteOrder) (n : Nat) : Bytes :=
  let parts := [UInt8.ofNat (n % 0x100), UInt8.ofNat (n / 0x100)]
  match o with
  | .little => parts
  | .big => parts.reverse

/-- The bytes of a unit `n` of four bytes. -/
def ByteOrder.bytes32 (o : ByteOrder) (n : Nat) : Bytes :=
  let parts := [UInt8.ofNat (n % 0x100), UInt8.ofNat (n / 0x100 % 0x100),
    UInt8.ofNat (n / 0x10000 % 0x100), UInt8.ofNat (n / 0x1000000)]
  match o with
  | .little => parts
  | .big => parts.reverse

/-- The unit of two bytes; it undoes `bytes16`. -/
def ByteOrder.unit16 (o : ByteOrder) (a b : UInt8) : Nat :=
  match o with
  | .little => a.toNat + b.toNat * 0x100
  | .big => a.toNat * 0x100 + b.toNat

/-- The unit of four bytes; it undoes `bytes32`. -/
def ByteOrder.unit32 (o : ByteOrder) (a b c d : UInt8) : Nat :=
  match o with
  | .little => a.toNat + b.toNat * 0x100 + c.toNat * 0x10000 + d.toNat * 0x1000000
  | .big => a.toNat * 0x1000000 + b.toNat * 0x10000 + c.toNat * 0x100 + d.toNat

/-- The ending of the name of an encoding with this order. -/
def ByteOrder.ending : ByteOrder → Text
  | .little => "-le"
  | .big => "-be"

/-! ## UTF-16 -/

namespace Utf16

/-- The bytes of a character: one unit, or a pair of surrogates where `bytes16` does not suffice. -/
def encodeChar (o : ByteOrder) (c : Char) : Bytes :=
  let n := c.toNat
  if n < 0x10000 then o.bytes16 n
  else o.bytes16 (0xD800 + (n - 0x10000) / 0x400) ++ o.bytes16 (0xDC00 + (n - 0x10000) % 0x400)

/-- The bytes of a text. -/
def encode (o : ByteOrder) (s : Text) : Bytes := s.flatMap (encodeChar o)

/-- A fault from `pos` up to before `stop`. -/
def fault (o : ByteOrder) (pos stop : Nat) (first : UInt8) (defect : Defect) : Except Fault Text :=
  .error (.undecodable ("utf-16" ++ o.ending) pos stop first defect)

/-- The text of some bytes, of which the first has the position `pos`. -/
def decodeFrom (o : ByteOrder) : Nat → Bytes → Except Fault Text
  | _, [] => .ok []
  | pos, [a] => fault o pos (pos + 1) a .truncated
  | pos, a :: b :: rest =>
    let n := o.unit16 a b
    if n < 0xD800 ∨ 0xDFFF < n then andThen (Char.ofNat n) (decodeFrom o (pos + 2) rest)
    else if 0xDC00 ≤ n then fault o pos (pos + 2) a .illegalEncoding
    else match rest with
      | [] => fault o pos (pos + 2) a .unexpectedEnd
      | [_] => fault o pos (pos + 3) a .unexpectedEnd
      | c :: d :: rest =>
        let m := o.unit16 c d
        if 0xDC00 ≤ m ∧ m ≤ 0xDFFF then
          andThen (Char.ofNat (0x10000 + (n - 0xD800) * 0x400 + (m - 0xDC00)))
            (decodeFrom o (pos + 4) rest)
        else fault o pos (pos + 2) a .illegalSurrogate

/-- The text of bytes that begin with a mark. Without one they are read in the little order, and it
    is a fault (`noByteOrder`) to find anything. -/
def decodeMarked (bs : Bytes) : Except Fault Text :=
  match bs with
  | 0xFF :: 0xFE :: rest => decodeFrom .little 2 rest
  | 0xFE :: 0xFF :: rest => decodeFrom .big 2 rest
  | _ =>
    (decodeFrom .little 0 bs).bind fun s =>
      if bs.length < 2 then .ok s else .error (.noByteOrder 16)

end Utf16

/-! ## UTF-32 -/

namespace Utf32

/-- The bytes of a text. -/
def encode (o : ByteOrder) (s : Text) : Bytes := s.flatMap fun c => o.bytes32 c.toNat

/-- A fault from `pos` up to before `stop`. -/
def fault (o : ByteOrder) (pos stop : Nat) (first : UInt8) (defect : Defect) : Except Fault Text :=
  .error (.undecodable ("utf-32" ++ o.ending) pos stop first defect)

/-- The text of some bytes, of which the first has the position `pos`. -/
def decodeFrom (o : ByteOrder) : Nat → Bytes → Except Fault Text
  | _, [] => .ok []
  | pos, a :: b :: c :: d :: rest =>
    let n := o.unit32 a b c d
    if 0xD800 ≤ n ∧ n ≤ 0xDFFF then fault o pos (pos + 4) a .surrogateRange
    else if 0x10FFFF < n then fault o pos (pos + 4) a .outOfRange
    else andThen (Char.ofNat n) (decodeFrom o (pos + 4) rest)
  | pos, a :: rest => fault o pos (pos + 1 + rest.length) a .truncated

/-- The text of bytes that begin with a mark. Without one they are read in the little order, and it
    is a fault (`noByteOrder`) to find anything. -/
def decodeMarked (bs : Bytes) : Except Fault Text :=
  match bs with
  | 0xFF :: 0xFE :: 0x00 :: 0x00 :: rest => decodeFrom .little 4 rest
  | 0x00 :: 0x00 :: 0xFE :: 0xFF :: rest => decodeFrom .big 4 rest
  | _ =>
    (decodeFrom .little 0 bs).bind fun s =>
      if bs.length < 4 then .ok s else .error (.noByteOrder 32)

end Utf32
end Seashell.Charset
