import Seashell.Statement.Bash
import Seashell.Statement.Scan

set_option autoImplicit false

/-! # Rules

A `Rule` recognises one kind of statement: `Rule.recognize?` gives the `Statement` that it finds in
a line, by one of the scanners of `Seashell.Statement.Scan`. A table of rules is tried from the top,
and the first rule that recognises a line converts it (`Rule.select`); a line that no rule
recognises stays as it is.

`Outcome.ofLine` is what a table makes of one line without its indentation: the rule, the text that
takes the place of the line, the function block after it, and what has been noticed. Rules have
names, by which traces and reports speak of them. -/

namespace Seashell

open Statement

/-- The rules, one for each kind of `Statement`. -/
inductive Rule where
  | header | blockComment | setenv | set | cd | ifNot | ifTest | elseIf | elseBranch | endIf
  | whileLoop | foreachLoop | switchOn | caseArm | breakSwitch | defaultArm | endSwitch | endLoop
  | alias | unalias | goto | label | source | passthrough
deriving Repr, DecidableEq

namespace Rule

/-- The name of a rule in traces and reports; `ofName?` finds the rule by it. -/
def name : Rule → Text
  | .header => "header"
  | .blockComment => "block_comment"
  | .setenv => "setenv"
  | .set => "set"
  | .cd => "cd"
  | .ifNot => "if_not"
  | .ifTest => "if"
  | .elseIf => "else_if"
  | .elseBranch => "else"
  | .endIf => "endif"
  | .whileLoop => "while"
  | .foreachLoop => "foreach"
  | .switchOn => "switch"
  | .caseArm => "case"
  | .breakSwitch => "breaksw"
  | .defaultArm => "default"
  | .endSwitch => "endsw"
  | .endLoop => "end"
  | .alias => "alias"
  | .unalias => "unalias"
  | .goto => "goto"
  | .label => "label"
  | .source => "source"
  | .passthrough => "passthrough"

/-- The standard table. A default arm also looks like a label, so it is tried before labels, and the
    rule that recognises every line is the last. -/
def standard : List Rule :=
  [.header, .blockComment, .setenv, .set, .cd, .ifNot, .ifTest, .elseIf, .elseBranch, .endIf,
    .whileLoop, .foreachLoop, .switchOn, .caseArm, .breakSwitch, .defaultArm, .endSwitch, .endLoop,
    .alias, .unalias, .goto, .label, .source, .passthrough]

/-- The rule of the name `n`. -/
def ofName? (n : Text) : Option Rule := standard.find? (·.name == n)

/-- The `Statement` that a rule recognises in a line. -/
def recognize? : Rule → Text → Option Statement
  | .header => interpreter?
  | .blockComment => commentFence?
  | .setenv => setenv?
  | .set => assign?
  | .cd => changeDirectory?
  | .ifNot => ifNot?
  | .ifTest => ifTest?
  | .elseIf => elseIf?
  | .elseBranch => bareKeyword? "else" .elseBranch
  | .endIf => bareKeyword? "endif" .endIf
  | .whileLoop => whileLoop?
  | .foreachLoop => foreachLoop?
  | .switchOn => switchOn?
  | .caseArm => caseArm?
  | .breakSwitch => bareKeyword? "breaksw" .breakSwitch
  | .defaultArm => defaultArm?
  | .endSwitch => bareKeyword? "endsw" .endSwitch
  | .endLoop => bareKeyword? "end" .endLoop
  | .alias => alias?
  | .unalias => unalias?
  | .goto => jump?
  | .label => label?
  | .source => source?
  | .passthrough => fun _ => some .verbatim

/-- The first rule of `table` that recognises a line, and the statement that it finds there. -/
def select (table : List Rule) (line : Text) : Rule × Statement :=
  (table.findSome? fun r => (r.recognize? line).map (r, ·)).getD (.passthrough, .verbatim)

end Rule

/-- What a table of rules makes of one line without its indentation. -/
structure Outcome where
  rule : Rule
  /-- The Bash text, perhaps of several lines. The empty text drops the line. -/
  text : Text
  /-- The function block after the line. -/
  block : Block
  notices : List Notice
deriving Repr, DecidableEq

namespace Outcome

/-- Converts one line without its indentation, by the rule that `Rule.select` gives for it. -/
def ofLine (table : List Rule) (block : Block) (line : Text) : Outcome :=
  let (rule, statement) := Rule.select table line
  ⟨rule, statement.bash line block, statement.blockAfter block, statement.notices⟩

/-- The output lines, before the indentation is put back. -/
def lines (o : Outcome) : List Text := if o.text.isEmpty then [] else List.splitOn '\n' o.text

end Outcome
end Seashell
