import Seashell.Codec
import Seashell.Failure

set_option autoImplicit false

/-! # Re-encoding of files

Files are re-encoded in place, from one encoding to another that a `Reencoding` names.
`Workspace.reencodeFile` takes one file. It reads the whole file (`Workspace.decodeFile`), keeps its
bytes in a backup beside it unless there is one (`Workspace.keepBackup`), and writes the text over
the file (`Workspace.overwrite`). The file is emptied when it is opened for that, before it is asked
whether there is an encoding of the new name and whether it has bytes for the text.

`Workspace.reencodeDirectory` takes all selected files below a directory. It asks for both encodings
first, by `Workspace.ownEncoding`, and goes on with the names by which the system calls them. Then
it takes one file after the other: one that cannot be read or written is logged and does not keep
the others from being converted. -/

namespace Seashell

/-- How `reencodeFile` and `reencodeDirectory` re-encode. -/
structure Reencoding where
  /-- The name of the encoding that the files have. -/
  source : Text := "windows-1252"
  /-- The name of the encoding that they get. -/
  target : Text := "utf-8"
  extensions : List Text := Selection.standardExtensions
  /-- The bytes before are kept in a file beside, by `keepBackup`. -/
  backup : Bool := true
  /-- Converted files are not logged. -/
  silent : Bool := false
deriving Repr, DecidableEq

namespace Workspace

/-- The path of the backup of the file at `path`. -/
def backupPath? (path : Path) : Option Path := path.withName? (path.name ++ ".bak")

/-- Keeps the bytes of a file at its `backupPath?`, unless something is there. -/
def keepBackup (w : Workspace) (path : Path) (content : Bytes) : Except Failure Workspace :=
  match backupPath? path with
  | none => .error .badName
  | some backup =>
    match w.look backup.text with
    | .error f => .error (.file (.system f))
    | .ok (some _) => .ok w
    | .ok none => (w.write backup.text content).mapError (.file ∘ .system)

/-- Writes the text `content` over a file, which is empty first. -/
def overwrite (w : Workspace) (codecs : Codecs) (target : Text) (path : Path) (content : Text) :
    Run Unit :=
  if !Codecs.isNamable target then { outcome := .error .badEncodingName, workspace := w }
  else match w.write path.text [] with
  | .error f => { outcome := .error (.file (.system f)), workspace := w }
  | .ok emptied =>
    match codecs.text? target with
    | none => { outcome := .error .unknownEncoding, workspace := emptied }
    | some codec =>
      match codec.encode [] content with
      | .error f => { outcome := .error (.file (.encoding f)), workspace := emptied }
      | .ok bytes =>
        match emptied.write path.text bytes with
        | .error f => { outcome := .error (.file (.system f)), workspace := emptied }
        | .ok written => { outcome := .ok (), workspace := written }

/-- The content of the file at `path` as bytes and as text. -/
def decodeFile (w : Workspace) (codecs : Codecs) (source : Text) (path : Path) :
    Except Failure (Bytes × Text) :=
  if !Codecs.isNamable source then .error .badEncodingName
  else match w.read path.text with
  | .error f => .error (.file (.system f))
  | .ok content =>
    match codecs.text? source with
    | none => .error .unknownEncoding
    | some codec =>
      match codec.decode content with
      | .error f => .error (.file (.decoding f))
      | .ok t => .ok (content, t)

/-- Re-encodes the file at `path` in place: `decodeFile`, `keepBackup` and `overwrite`. -/
def reencodeFile (w : Workspace) (codecs : Codecs) (r : Reencoding) (path : Path) : Run Unit :=
  match w.decodeFile codecs r.source path with
  | .error f => { outcome := .error f, workspace := w }
  | .ok (content, t) =>
    match if r.backup then w.keepBackup path content else .ok w with
    | .error f => { outcome := .error f, workspace := w }
    | .ok kept =>
      let run := kept.overwrite codecs r.target path t
      match run.outcome with
      | .error _ => run
      | .ok () => { run with log := if r.silent then [] else [.converted path.text] }

/-- Re-encodes files one after the other by `reencodeFile`. A file that cannot be read or written is
    logged and does not keep the others from being converted. -/
def reencodeFiles (w : Workspace) (codecs : Codecs) (r : Reencoding) : List Path → Run Unit
  | [] => { outcome := .ok (), workspace := w }
  | path :: rest =>
    let run := w.reencodeFile codecs r path
    match run.outcome with
    | .ok () =>
      let others := run.workspace.reencodeFiles codecs r rest
      { others with log := run.log ++ others.log }
    | .error (.file f) =>
      let others := run.workspace.reencodeFiles codecs r rest
      { others with log := .failed path.text f :: others.log }
    | .error _ => run

/-- The name by which the system calls the encoding `name`, which may be one that does not turn
    bytes into text. -/
def ownEncoding (codecs : Codecs) (name : Text) : Except Failure Text :=
  if !Codecs.isNamable name then .error .badEncodingName
  else match codecs.ownName? name with
    | none => .error (.invalid (.unsupportedEncoding name))
    | some own => .ok own

/-- The re-encoding `r` by the system's own names of both encodings. -/
def ownReencoding (codecs : Codecs) (r : Reencoding) : Except Failure Reencoding := do
  let source ← ownEncoding codecs r.source
  let target ← ownEncoding codecs r.target
  return { r with source, target }

/-- There is a directory at the path `root`. -/
def checkDirectory (w : Workspace) (root : Path) : Except Failure Unit :=
  match w.look root.text with
  | .error f => .error (.file (.system f))
  | .ok (some .directory) => .ok ()
  | .ok _ => .error (.invalid (.notDirectory (w.absolute root).text))

/-- What a re-encoding of a directory comes to: the re-encoding of some files by the system's own
    names of the encodings. -/
def planReencoding (w : Workspace) (codecs : Codecs) (r : Reencoding) (root : Path) :
    Except Failure (Reencoding × List Path) := do
  w.checkDirectory root
  let own ← ownReencoding codecs r
  let paths ← (w.listFiles root.text r.extensions).mapError (.file ∘ .system)
  return (own, paths)

/-- Re-encodes the selected files below a directory as `planReencoding` says; the path is given as
    text. -/
def reencodeDirectory (w : Workspace) (codecs : Codecs) (r : Reencoding) (given : Text) : Run Path :=
  let root := Path.ofText given
  match w.planReencoding codecs r root with
  | .error f => { outcome := .error f, workspace := w }
  | .ok (own, paths) =>
    let run := w.reencodeFiles codecs own paths
    { run with outcome := run.outcome.map fun _ => root }

end Workspace
end Seashell
