import Seashell.Platform

set_option autoImplicit false

/-! # The command line program

Reads what a command looks at from the disk (`Program.loadPlaces`), runs the command on it, and
writes back the files that changed (`Program.save`). `main` reads the command line; everything else
is done by `CommandLine.Command.run` on `Platform.standard`. -/

namespace Seashell.Program

open CommandLine

/-- The bytes of a file on the disk. -/
def fileBytes (path : String) : IO Bytes := do
  return (← IO.FS.readBinFile path).toList

/-- The place on the disk that the route `r` leads to. -/
def diskPath (r : Route) : String := String.ofList ('/' :: Text.join ['/'] r)

/-- Adds what is at `diskPath r`, a file or a directory with everything in it, to a tree. -/
partial def load (t : FileTree) (r : Route) : IO FileTree := do
  let place := (← IO.currentDir) / diskPath r
  if ← place.isDir then
    let mut t := if r.isEmpty then t else t.put r .directory
    for child in ← place.readDir do
      t ← load t (r ++ [child.fileName.toList])
    return t
  else if ← place.pathExists then return t.put r (.file (← fileBytes (diskPath r)))
  else return t

/-- Adds what lies on the way to a path, and what the path leads to, to a tree. -/
def loadPath (t : FileTree) (start : Route) : List Text → IO FileTree
  | [] => load t start
  | part :: rest => do
    let place := (← IO.currentDir) / diskPath start
    if ← place.isDir then
      loadPath (if start.isEmpty then t else t.put start .directory) (FileTree.stepFrom start part) rest
    else load t start

/-- Adds what a command looks at to a workspace, by `loadPath`. -/
def loadPlaces (w : Workspace) (places : List Path) : IO Workspace := do
  let mut tree := w.tree
  for p in places do
    tree ← loadPath tree [] (w.absolute p).parts
  return { w with tree }

/-- Writes the files that are in the tree `after` but not, or not so, in the tree `before`. -/
def save (before after : FileTree) : IO Unit := do
  for (r, e) in after.entries do
    match e with
    | .file content =>
      if before.get? r != some e then
        IO.FS.writeBinFile (diskPath r) ⟨content.toArray⟩
    | .directory => pure ()

/-- Runs `command` on the disk; the result is the exit code. -/
def runCommand (command : Command) : IO UInt32 := do
  let here := Path.ofText (← IO.currentDir).toString.toList
  let start : Workspace := ⟨FileTree.empty.addDirectory here.parts, here⟩
  let found ← loadPlaces start (command.places start .standard)
  let w ← loadPlaces found (command.places found .standard)
  let done := command.run w .standard
  save w.tree done.workspace.tree
  for notice in done.notices do
    IO.eprintln ("Warning: " ++ String.ofList notice.message)
  match done.ending with
  | .exit code output errors =>
    IO.print (String.ofList output)
    IO.eprint (String.ofList errors)
    return UInt32.ofNat code
  | .misuse => return 2
  | .crash (.file f) =>
    IO.eprintln (String.ofList f.message)
    return 1
  | .crash _ =>
    IO.eprintln "The command could not be completed."
    return 1

end Seashell.Program

/-- The command line program. -/
def main (args : List String) : IO UInt32 :=
  match Seashell.CommandLine.read (args.map String.toList) with
  | .ok command => Seashell.Program.runCommand command
  | .error _ => do
    IO.eprintln "Usage: convert INPUT [--to KIND] [--config FILE]"
    IO.eprintln "       analyze INPUT [--format FORMAT] [--trace]"
    IO.eprintln "       encode ROOT SOURCE TARGET [--ext LIST] [--no-backup] [--silent]"
    return 2
