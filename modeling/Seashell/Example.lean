import Seashell.Charset.Utf8
import Seashell.FileTree.Workspace

set_option autoImplicit false

/-! # An example script

A script with every construct that the conversion knows: variables, control flow, a switch, aliases,
labels with jumps to fixed and to computed targets, and a sourced file. `Example.write` puts it into
a directory, and `Seashell.Demo` follows it from there. -/

namespace Seashell.Example

/-- The lines of the example script. -/
def lines : List String := [
  "#!/bin/csh -f",
  "# Nightly build wrapper",
  "",
  "setenv BUILD_ROOT /opt/build",
  "set mode = \"release\"",
  "set today = `date +%Y%m%d`",
  "cd $BUILD_ROOT/logs",
  "",
  "alias ll ls -l",
  "unalias ll",
  "",
  "if !( -d $BUILD_ROOT/out ) then",
  "    mkdir -p $BUILD_ROOT/out",
  "endif",
  "",
  "if ($mode == release) then",
  "    set flags = \"-O2\"",
  "else if ($mode != debug) then",
  "    set flags = \"-O1\"",
  "else",
  "    set flags = \"-g\"",
  "endif",
  "",
  "foreach target (core ui docs)",
  "    echo \"building $target\"",
  "end",
  "",
  "set i = 0",
  "while ($i < 3)",
  "    @ i++",
  "end",
  "",
  "switch ($mode)",
  "    case release:",
  "        echo \"release build\"",
  "        breaksw",
  "    case \"debug\":",
  "        echo \"debug build\"",
  "        breaksw",
  "    default:",
  "        echo \"unknown mode\"",
  "        breaksw",
  "endsw",
  "",
  "source $BUILD_ROOT/env.csh",
  "set next = cleanup",
  "goto build",
  "",
  "build:",
  "    make $flags",
  "    goto $next",
  "",
  "cleanup:",
  "    rm -rf $BUILD_ROOT/tmp"]

/-- The example script: its `lines`, each with a line feed. -/
def script : Text := lines.flatMap fun line => line.toList ++ ['\n']

/-- The usual name of the example script. -/
def fileName : Text := "nightly.csh"

/-- Writes the example `script` into a directory. -/
def write (w : Workspace) (directory : Path) (name : Text) : Except SystemFault (Path × Workspace) :=
  let path := directory.child name
  (w.write path.text (Charset.Utf8.encode script)).map fun written => (path, written)

end Seashell.Example
