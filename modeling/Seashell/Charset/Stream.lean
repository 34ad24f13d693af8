import Seashell.Charset.Basic
import Seashell.Codec
import Seashell.Text.Lines

set_option autoImplicit false

/-! # Reading in chunks

A file that is read line by line is read in chunks of bytes (`chunks`), and each chunk is decoded
when its lines are asked for. A character may be cut in two by the end of a chunk. Its first bytes
are then kept for the next one (`decodePart`), and only when the file ends it turns out that the
character does not. A byte order mark is looked for in the first bytes, after which the order is
known: in a chunk, `decodeChunk` says what the following ones are to be decoded by.

So a fault comes up when the chunk is decoded that shows it, by its place in that chunk, and the
lines before have been read. `readingOf` says which they are: a line counts once its terminator is
there, and a carriage return at the end of a chunk may still be the first half of one.
`Charset.codec` is the codec of an encoding. -/

namespace Seashell.Charset

/-! ## Chunks -/

/-- The bytes that are read at a time, when a file is read line by line. -/
def chunkSize : Nat := 8192

/-- Cuts bytes into chunks, of which the first takes no more than `room`. -/
def chunksFrom : (room : Nat) → Bytes → List Bytes
  | _, [] => [[]]
  | 0, b :: bs => [] :: (chunksFrom (chunkSize - 1) bs).modifyHead (b :: ·)
  | room + 1, b :: bs => (chunksFrom room bs).modifyHead (b :: ·)

/-- The bytes of a file in chunks of `chunkSize`. -/
def chunks (bs : Bytes) : List Bytes := chunksFrom chunkSize bs

/-- More bytes could make a character of those that are there, so that `decodePart` keeps them. -/
def Defect.isOpen : Defect → Bool
  | .unexpectedEnd => true
  | .truncated => true
  | _ => false

/-- The text of some bytes by the decoder `decode`, and the bytes at the end that are to be seen
    together with what follows them; there are none if the part is `final`. -/
def decodePart (decode : Nat → Bytes → Except Fault Text) (final : Bool) (pos : Nat) (bs : Bytes) :
    Except Fault (Text × Bytes) :=
  match decode pos bs with
  | .ok t => .ok (t, [])
  | .error (.undecodable codec start stop first defect) =>
    if !final && defect.isOpen then
      (decode pos (bs.take (start - pos))).map fun t => (t, bs.drop (start - pos))
    else .error (.undecodable codec start stop first defect)
  | .error f => .error f

/-- The encoding of what follows a byte order mark, or its absence. -/
def unmarked : Charset → Charset
  | .utf8Marked => .utf8
  | .utf16 none => .utf16 (some .little)
  | .utf32 none => .utf32 (some .little)
  | c => c

/-- The text of bytes without a byte order mark, of which the first has the position `pos`. -/
def decodeFrom : Charset → (pos : Nat) → Bytes → Except Fault Text
  | .utf8, pos, bs => Utf8.decodeFrom pos bs
  | .utf8Marked, pos, bs => Utf8.decodeFrom pos bs
  | .ascii, pos, bs => SingleByte.ascii.decodeFrom pos bs
  | .latin1, pos, bs => SingleByte.latin1.decodeFrom pos bs
  | .windows1252, pos, bs => SingleByte.windows1252.decodeFrom pos bs
  | .utf16 order, pos, bs => Utf16.decodeFrom (order.getD .little) pos bs
  | .utf32 order, pos, bs => Utf32.decodeFrom (order.getD .little) pos bs

/-- What a chunk comes to: its text, the encoding of what follows, and the bytes that are kept for
    the next chunk. -/
structure Chunk where
  text : Text
  charset : Charset
  kept : Bytes

/-- Decodes the bytes of a chunk that are in an encoding without a mark; `skipped` bytes of a mark
    stand before them. -/
def decodeUnmarked (c : Charset) (final : Bool) (skipped : Nat) (bs : Bytes) : Except Fault Chunk :=
  (decodePart c.decodeFrom final skipped bs).map fun part => ⟨part.1, c, part.2⟩

/-- Decodes the bytes of a chunk that should begin with a mark of `size` bytes and do not. It is a
    fault to find anything. -/
def decodeWithoutMark (c : Charset) (final : Bool) (size bits : Nat) (bs : Bytes) :
    Except Fault Chunk :=
  match decodePart c.unmarked.decodeFrom final 0 bs with
  | .error f => .error f
  | .ok (t, kept) =>
    if bs.length - kept.length < size then .ok ⟨t, c, kept⟩ else .error (.noByteOrder bits)

/-- Decodes the bytes `bs` of a chunk, together with those that were kept for it. -/
def decodeChunk (final : Bool) (bs : Bytes) : Charset → Except Fault Chunk
  | .utf8Marked =>
    if bs.length < 3 ∧ bs.isPrefixOf Utf8.mark then .ok ⟨[], .utf8Marked, bs⟩
    else match Utf8.mark.isPrefixOf? bs with
      | some rest => decodeUnmarked .utf8 final 0 rest
      | none => decodeUnmarked .utf8 final 0 bs
  | .utf16 none =>
    match bs with
    | 0xFF :: 0xFE :: rest => decodeUnmarked (.utf16 (some .little)) final 2 rest
    | 0xFE :: 0xFF :: rest => decodeUnmarked (.utf16 (some .big)) final 2 rest
    | _ => decodeWithoutMark (.utf16 none) final 2 16 bs
  | .utf32 none =>
    match bs with
    | 0xFF :: 0xFE :: 0x00 :: 0x00 :: rest => decodeUnmarked (.utf32 (some .little)) final 4 rest
    | 0x00 :: 0x00 :: 0xFE :: 0xFF :: rest => decodeUnmarked (.utf32 (some .big)) final 4 rest
    | _ => decodeWithoutMark (.utf32 none) final 4 32 bs
  | c => decodeUnmarked c final 0 bs

/-! ## Lines -/

/-- The text of chunks up to where `decodeChunk` fails, if it does. -/
structure Decoding where
  text : Text
  fault : Option Fault

/-- Decodes one chunk after the other; `kept` are the bytes that the first one is to be seen
    with. -/
def decodeChunks (c : Charset) (kept : Bytes) : List Bytes → Decoding
  | [] =>
    match c.decodeChunk true kept with
    | .error f => ⟨[], some f⟩
    | .ok last => ⟨last.text, none⟩
  | chunk :: rest =>
    match c.decodeChunk false (kept ++ chunk) with
    | .error f => ⟨[], some f⟩
    | .ok first =>
      let later := decodeChunks first.charset first.kept rest
      ⟨first.text ++ later.text, later.fault⟩

/-- The text without a carriage return at its end. -/
def withoutReturn (t : Text) : Text := if t.getLast? = some '\r' then t.dropLast else t

/-- The lines that are read of a text up to a fault: those of `Text.readLines` whose terminator is
    there. -/
def linesBefore (t : Text) : List Text :=
  (Text.readLines (withoutReturn t)).filter (·.getLast? == some '\n')

/-- What is read line by line of what `decodeChunks` has decoded. -/
def readingOf (d : Decoding) : Codec.Reading :=
  match d.fault with
  | none => ⟨Text.readLines d.text, none⟩
  | some f => ⟨linesBefore d.text, some f⟩

/-- The lines of the content `bs`, read one after the other. -/
def readLines (c : Charset) (bs : Bytes) : Codec.Reading := readingOf (decodeChunks c [] (chunks bs))

/-- The codec of an encoding, which reads by `decode` and `readLines`. Only the first text that is
    written into a file gets a byte order mark. A file that is read while it is written is seen
    empty, also where the buffer would not hold what is written. -/
def codec (c : Charset) : Codec where
  decode bs := c.decode bs
  readLines bs := c.readLines bs
  encode before t := if before.isEmpty then c.encode t else c.unmarked.encode t
  readBack _ := c.readLines []
  readBack_eq _ _ := rfl

end Seashell.Charset
