set_option autoImplicit false

/-! # Text

Everything the library reads and writes is `Text`, taken as a list of characters, so that lengths
and positions count code points and every scanner is a recursion on the list. This module holds the
class of blank characters (`isBlank`) and the handful of operations that the scanners share: what
stands before and after blanks (`trimStart`, `trimEnd`, `word`, `afterWord`), what a text begins and
ends with (`after?`, `startsWith`, `endsWith`), and how texts are put together (`join`) and ordered
(`sort`). Where core has the operation on lists, it is used by its name. -/

namespace Seashell

/-- A text, character by character. -/
abbrev Text := List Char

instance : Coe String Text := ⟨String.toList⟩

namespace Text

/-! ## Blank characters -/

/-- White space in the sense of Unicode, together with the four information separators. -/
def isBlank (c : Char) : Bool :=
  let n := c.toNat
  (0x09 ≤ n && n ≤ 0x0D) || (0x1C ≤ n && n ≤ 0x20) || n == 0x85 || n == 0xA0 || n == 0x1680
    || (0x2000 ≤ n && n ≤ 0x200A) || n == 0x2028 || n == 0x2029 || n == 0x202F || n == 0x205F
    || n == 0x3000

/-- There is nothing but blanks (`isBlank`) in `s`. -/
def allBlank (s : Text) : Bool := s.all isBlank

/-- The blanks at the start of `s`. -/
def blanks (s : Text) : Text := s.takeWhile isBlank

/-- The text `s` without the blanks at its start. -/
def trimStart (s : Text) : Text := s.dropWhile isBlank

/-- The text `s` without the blanks at its end. -/
def trimEnd (s : Text) : Text := (s.reverse.dropWhile isBlank).reverse

/-- The text without the blanks at either end: `trimStart`, then `trimEnd`. -/
def trim (s : Text) : Text := trimEnd (trimStart s)

/-- The word at the start of `s`: everything before the first blank. -/
def word (s : Text) : Text := s.takeWhile (!isBlank ·)

/-- What follows the `word` at the start. -/
def afterWord (s : Text) : Text := s.dropWhile (!isBlank ·)

/-! ## Fixed parts -/

/-- What follows `lead`, if the text begins with it. -/
def after? (lead s : Text) : Option Text := lead.isPrefixOf? s

/-- The text begins with `lead`. -/
def startsWith (s lead : Text) : Bool := lead.isPrefixOf s

/-- The text ends with `tail`. -/
def endsWith (s tail : Text) : Bool := tail.isSuffixOf s

/-- `part` stands somewhere in the text. -/
def hasPart (part : Text) : Text → Bool
  | [] => part.isEmpty
  | c :: cs => part.isPrefixOf (c :: cs) || hasPart part cs

/-- The first line of `s`, without its terminator. -/
def firstLine (s : Text) : Text := s.takeWhile (· != '\n')

/-! ## Joining

Texts are cut at a character by `List.splitOn`. -/

/-- The pieces with `sep` between them. -/
def join (sep : Text) (pieces : List Text) : Text := sep.intercalate pieces

/-! ## Order -/

/-- The texts in ascending order of their code points. -/
def sort (texts : List Text) : List Text := texts.mergeSort fun a b => !decide (b < a)

end Text
end Seashell
