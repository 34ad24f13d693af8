import Seashell.Charset.Stream

set_option autoImplicit false

/-! # Names of character encodings

By which names the encodings are asked for. A name is compared by its letters, digits and points in
lower case (`normalizeName`). It is looked for among `otherNames`, where a point may also stand for
an underscore, and then among `mainNames`; `ofName?` finds what it stands for, which is an encoding
of text or one of the transformations that only turn bytes or texts into others (`Transform`).

`Charset.codecs` are the codecs with which the program is run. They are a selection: a system has
more encodings, and more names for them. -/

namespace Seashell.Charset

/-- Transformations that go by a name as encodings do, but do not turn bytes into text. -/
inductive Transform where
  | rot13
  | hex
  | base64
deriving Repr, DecidableEq

/-- What a name stands for. -/
inductive Named where
  /-- An encoding of text. -/
  | charset (c : Charset)
  /-- A transformation that is known but does not turn bytes into text. -/
  | transform (t : Transform)
deriving Repr, DecidableEq

/-- The name by which the system calls it; `ofName?` finds it under that name. -/
def Named.ownName : Named → Text
  | .charset .utf8 => "utf-8"
  | .charset .utf8Marked => "utf-8-sig"
  | .charset .ascii => "ascii"
  | .charset .latin1 => "iso8859-1"
  | .charset .windows1252 => "cp1252"
  | .charset (.utf16 none) => "utf-16"
  | .charset (.utf16 (some o)) => "utf-16" ++ o.ending
  | .charset (.utf32 none) => "utf-32"
  | .charset (.utf32 (some o)) => "utf-32" ++ o.ending
  | .transform .rot13 => "rot13"
  | .transform .hex => "hex"
  | .transform .base64 => "base64"

/-- Joins the parts of a name by underscores. Anything but ASCII letters, digits and points divides
    parts; `pending` says that an underscore is due. -/
def normalizeFrom : Bool → Text → Text
  | _, [] => []
  | pending, c :: cs =>
    if c.isAlphanum || c == '.' then
      (if pending then ['_', c.toLower] else [c.toLower]) ++ normalizeFrom false cs
    else normalizeFrom true cs

/-- `name` in lower case, with one underscore for each run of other characters inside it. -/
def normalizeName (name : Text) : Text :=
  normalizeFrom false (name.dropWhile fun c => !(c.isAlphanum || c == '.'))

/-- The names, as `normalizeName` gives them, by which the encodings go in the first place. -/
def mainNames : List (Text × Named) :=
  [("utf_8".toList, .charset .utf8), ("utf_8_sig".toList, .charset .utf8Marked),
    ("ascii".toList, .charset .ascii), ("latin_1".toList, .charset .latin1),
    ("cp1252".toList, .charset .windows1252), ("utf_16".toList, .charset (.utf16 none)),
    ("utf_16_le".toList, .charset (.utf16 (some .little))),
    ("utf_16_be".toList, .charset (.utf16 (some .big))), ("utf_32".toList, .charset (.utf32 none)),
    ("utf_32_le".toList, .charset (.utf32 (some .little))),
    ("utf_32_be".toList, .charset (.utf32 (some .big))), ("rot_13".toList, .transform .rot13),
    ("hex_codec".toList, .transform .hex), ("base64_codec".toList, .transform .base64)]

/-- Other names of the encodings, as `normalizeName` gives them. -/
def otherNames : List (Text × Named) :=
  let named (n : Named) (names : List String) := names.map fun name => (name.toList, n)
  named (.charset .utf8) ["u8", "utf", "utf8", "utf8_ucs2", "utf8_ucs4", "cp65001"]
  ++ named (.charset .ascii) ["646", "ansi_x3.4_1968", "ansi_x3_4_1968", "ansi_x3.4_1986", "cp367",
    "csascii", "ibm367", "iso646_us", "iso_646.irv_1991", "iso_ir_6", "us", "us_ascii"]
  ++ named (.charset .latin1) ["8859", "cp819", "csisolatin1", "ibm819", "iso8859", "iso8859_1",
    "iso_8859_1", "iso_8859_1_1987", "iso_ir_100", "l1", "latin", "latin1"]
  ++ named (.charset .windows1252) ["1252", "windows_1252"]
  ++ named (.charset (.utf16 none)) ["u16", "utf16"]
  ++ named (.charset (.utf16 (some .little))) ["unicodelittleunmarked", "utf_16le"]
  ++ named (.charset (.utf16 (some .big))) ["unicodebigunmarked", "utf_16be"]
  ++ named (.charset (.utf32 none)) ["u32", "utf32"]
  ++ named (.charset (.utf32 (some .little))) ["utf_32le"]
  ++ named (.charset (.utf32 (some .big))) ["utf_32be"]
  ++ named (.transform .rot13) ["rot13"] ++ named (.transform .hex) ["hex"]
  ++ named (.transform .base64) ["base64", "base_64"]

/-- What `name` stands for. In `otherNames` a point may stand for an underscore. -/
def ofName? (name : Text) : Option Named :=
  let n := normalizeName name
  (otherNames.lookup n).or
    ((otherNames.lookup (n.map fun c => if c = '.' then '_' else c)).or (mainNames.lookup n))

/-- The encoding of text that `name` stands for. -/
def ofTextName? (name : Text) : Option Charset :=
  match ofName? name with
  | some (.charset c) => some c
  | _ => none

/-- Everything that `ofName?` can find. -/
def Named.all : List Named :=
  [.charset .utf8, .charset .utf8Marked, .charset .ascii, .charset .latin1, .charset .windows1252,
    .charset (.utf16 none), .charset (.utf16 (some .little)), .charset (.utf16 (some .big)),
    .charset (.utf32 none), .charset (.utf32 (some .little)), .charset (.utf32 (some .big)),
    .transform .rot13, .transform .hex, .transform .base64]

theorem Named.mem_all (n : Named) : n ∈ all := by
  cases n with
  | charset c =>
    cases c with
    | utf16 order => rcases order with _ | _ | _ <;> simp [all]
    | utf32 order => rcases order with _ | _ | _ <;> simp [all]
    | _ => simp [all]
  | transform t => cases t <;> simp [all]

theorem ofName?_ownName (n : Named) : ofName? n.ownName = some n := by
  have hall : ∀ n ∈ Named.all, ofName? n.ownName = some n := by decide +kernel
  exact hall n n.mem_all

theorem ownName_clean (n : Named) : '\x00' ∉ n.ownName := by
  have hall : ∀ n ∈ Named.all, '\x00' ∉ n.ownName := by decide +kernel
  exact hall n n.mem_all

theorem exists_of_ownName? {name own : Text} (h : (ofName? name).map Named.ownName = some own) :
    ∃ n, ofName? name = some n ∧ n.ownName = own := Option.map_eq_some_iff.1 h

theorem ofTextName?_ownName {name : Text} {n : Named} (h : ofName? name = some n) :
    ofTextName? n.ownName = ofTextName? name := by
  simp only [ofTextName?, ofName?_ownName, h]

/-- The codecs with which the program is run: those of `ofTextName?`. -/
def codecs : Codecs where
  text? name := (ofTextName? name).map codec
  ownName? name := (ofName? name).map Named.ownName
  ownName?_clean h := by
    obtain ⟨n, _, rfl⟩ := exists_of_ownName? h
    exact ownName_clean n
  text?_ownName? h := by
    obtain ⟨n, hn, rfl⟩ := exists_of_ownName? h
    rw [ofTextName?_ownName hn]

end Seashell.Charset
