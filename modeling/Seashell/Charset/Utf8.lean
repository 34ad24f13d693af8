import Seashell.Charset.Fault

set_option autoImplicit false

/-! # UTF-8

A character takes one to four bytes. `Utf8.encodeChar` writes the shortest form, and
`Utf8.decodeFrom` reads no other: overlong forms, surrogates and code points beyond the last one are
refused by the range of the second byte (`isSecondOfThree`, `isSecondOfFour`). A fault covers the
first byte and the continuation bytes that were read, and is an `unexpectedEnd` if the bytes end
before it can be told whether they are right.

With a byte order mark in front, the encoding is another one (`Utf8.encodeMarked`,
`Utf8.decodeMarked`), which reads files without a mark as well. -/

namespace Seashell.Charset.Utf8

/-- The bytes of a character, in the shortest form. -/
def encodeChar (c : Char) : Bytes :=
  let n := c.toNat
  if n < 0x80 then [UInt8.ofNat n]
  else if n < 0x800 then [UInt8.ofNat (0xC0 + n / 0x40), UInt8.ofNat (0x80 + n % 0x40)]
  else if n < 0x10000 then
    [UInt8.ofNat (0xE0 + n / 0x1000), UInt8.ofNat (0x80 + n / 0x40 % 0x40),
      UInt8.ofNat (0x80 + n % 0x40)]
  else
    [UInt8.ofNat (0xF0 + n / 0x40000), UInt8.ofNat (0x80 + n / 0x1000 % 0x40),
      UInt8.ofNat (0x80 + n / 0x40 % 0x40), UInt8.ofNat (0x80 + n % 0x40)]

/-- The bytes of a text, `encodeChar` by `encodeChar`. -/
def encode (s : Text) : Bytes := s.flatMap encodeChar

/-- A byte from `low` up to `high`. -/
def within (low high : Nat) (b : UInt8) : Bool := low ≤ b.toNat && b.toNat ≤ high

/-- A continuation byte, as it stands behind the first byte of a form. -/
def isTail (b : UInt8) : Bool := within 0x80 0xBF b

/-- A second byte that may follow the byte `first` of a three-byte form. -/
def isSecondOfThree (first : Nat) (b : UInt8) : Bool :=
  if first = 0xE0 then within 0xA0 0xBF b
  else if first = 0xED then within 0x80 0x9F b
  else isTail b

/-- A second byte that may follow the byte `first` of a four-byte form. -/
def isSecondOfFour (first : Nat) (b : UInt8) : Bool :=
  if first = 0xF0 then within 0x90 0xBF b
  else if first = 0xF4 then within 0x80 0x8F b
  else isTail b

/-- The six bits that a continuation byte carries. -/
def low (b : UInt8) : Nat := b.toNat % 0x40

/-- A fault that covers `length` bytes. -/
def fault (pos length : Nat) (first : UInt8) (defect : Defect) : Except Fault Text :=
  .error (.undecodable "utf-8" pos (pos + length) first defect)

/-- The text of some bytes, of which the first has the position `pos`. -/
def decodeFrom (pos : Nat) : Bytes → Except Fault Text
  | [] => .ok []
  | a :: as =>
    let n := a.toNat
    if n < 0x80 then andThen (Char.ofNat n) (decodeFrom (pos + 1) as)
    else if n < 0xC2 ∨ 0xF4 < n then fault pos 1 a .invalidStart
    else match as with
      | [] => fault pos 1 a .unexpectedEnd
      | b :: bs =>
        if n < 0xE0 then
          if isTail b then
            andThen (Char.ofNat ((n - 0xC0) * 0x40 + low b)) (decodeFrom (pos + 2) bs)
          else fault pos 1 a .invalidContinuation
        else if n < 0xF0 then
          if !isSecondOfThree n b then fault pos 1 a .invalidContinuation
          else match bs with
            | [] => fault pos 2 a .unexpectedEnd
            | c :: cs =>
              if isTail c then
                andThen (Char.ofNat ((n - 0xE0) * 0x1000 + low b * 0x40 + low c))
                  (decodeFrom (pos + 3) cs)
              else fault pos 2 a .invalidContinuation
        else if !isSecondOfFour n b then fault pos 1 a .invalidContinuation
        else match bs with
          | [] => fault pos 2 a .unexpectedEnd
          | c :: cs =>
            if !isTail c then fault pos 2 a .invalidContinuation
            else match cs with
              | [] => fault pos 3 a .unexpectedEnd
              | d :: ds =>
                if isTail d then
                  andThen
                    (Char.ofNat ((n - 0xF0) * 0x40000 + low b * 0x1000 + low c * 0x40 + low d))
                    (decodeFrom (pos + 4) ds)
                else fault pos 3 a .invalidContinuation

/-- The text of the whole content `bs`. -/
def decode (bs : Bytes) : Except Fault Text := decodeFrom 0 bs

/-- The bytes of the byte order mark. -/
def mark : Bytes := [0xEF, 0xBB, 0xBF]

/-- The bytes of a text, with the `mark` in front. -/
def encodeMarked (s : Text) : Bytes := mark ++ encode s

/-- The text of some bytes, without the `mark` in front. Less than a whole mark is no text at all,
    and positions count from after the mark. -/
def decodeMarked (bs : Bytes) : Except Fault Text :=
  if bs.length < 3 ∧ bs.isPrefixOf mark then .ok []
  else match mark.isPrefixOf? bs with
    | some rest => decode rest
    | none => decode bs

end Seashell.Charset.Utf8
