import Seashell.Charset.SingleByte
import Seashell.Charset.Utf8
import Seashell.Charset.Wide

set_option autoImplicit false

/-! # Character encodings

The encodings that are described here, and for each the two directions between bytes and text:
`Charset.decode` takes a whole content, and `Charset.encode` a text that is written into an empty
file. Each direction is that of one of the families: `Charset.Utf8`, `Charset.SingleByte`,
`Charset.Utf16` and `Charset.Utf32`. How files are read and written in them is said in
`Seashell.Charset.Stream`, and by which names they go in `Seashell.Charset.Library`. -/

namespace Seashell

/-- A character encoding. -/
inductive Charset where
  | utf8
  /-- UTF-8 with a byte order mark in front. -/
  | utf8Marked
  | ascii
  | latin1
  | windows1252
  /-- UTF-16; without an order there is a byte order mark in front. -/
  | utf16 (order : Option Charset.ByteOrder)
  /-- UTF-32; without an order there is a byte order mark in front. -/
  | utf32 (order : Option Charset.ByteOrder)
deriving Repr, DecidableEq

namespace Charset

/-! ## Conversion -/

/-- The text of the content `bs`. -/
def decode (bs : Bytes) : Charset → Except Fault Text
  | .utf8 => Utf8.decode bs
  | .utf8Marked => Utf8.decodeMarked bs
  | .ascii => SingleByte.ascii.decodeFrom 0 bs
  | .latin1 => SingleByte.latin1.decodeFrom 0 bs
  | .windows1252 => SingleByte.windows1252.decodeFrom 0 bs
  | .utf16 (some o) => Utf16.decodeFrom o 0 bs
  | .utf16 none => Utf16.decodeMarked bs
  | .utf32 (some o) => Utf32.decodeFrom o 0 bs
  | .utf32 none => Utf32.decodeMarked bs

/-- The bytes of `s`, as they stand in a file that holds nothing else. -/
def encode (s : Text) : Charset → Except Fault Bytes
  | .utf8 => .ok (Utf8.encode s)
  | .utf8Marked => .ok (Utf8.encodeMarked s)
  | .ascii => SingleByte.ascii.encodeFrom 0 s
  | .latin1 => SingleByte.latin1.encodeFrom 0 s
  | .windows1252 => SingleByte.windows1252.encodeFrom 0 s
  | .utf16 (some o) => .ok (Utf16.encode o s)
  | .utf16 none => .ok (Utf16.encode .little ('\uFEFF' :: s))
  | .utf32 (some o) => .ok (Utf32.encode o s)
  | .utf32 none => .ok (Utf32.encode .little ('\uFEFF' :: s))

end Charset
end Seashell
