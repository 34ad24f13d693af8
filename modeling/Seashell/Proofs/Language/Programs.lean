import Seashell.Proofs.Language.Lines
import Seashell.Proofs.Lines

set_option autoImplicit false

/-! # C shell programs and their Bash counterparts

A `Program` is a tree of statements, conditionals, loops and switches (`Item`), cut by labels into a
preamble and functions. It is printed twice from the tree: as the lines of a C shell script
(`Program.csh`) and as the lines of a Bash script (`Program.bash`). The main statement,
`Program.convertText_csh`, is that converting the one script gives the other.

`Runs` says what a run over some lines writes, from one function block to another. Runs are put
together by `Runs.append`, and `Runs.line` makes one of what a line writes. By mutual induction over
the tree every part of a program runs from its lines in the one shell to those in the other, with
the function block left as it was (`Item.runs`, `Code.runs`, `Branches.runs`, `Arms.runs`). Only a
label changes the block: it ends the function that is open and begins the next one
(`Function.runs`), so that the end of the script completes the last function
(`intercalate_bash`). -/

namespace Seashell

open Text

namespace Csh

/-! ## Programs -/

-- Every line has a layout of its own; where a construct has two lines, the second layout is that of
-- the line which closes it.
mutual

/-- A part of a program. -/
inductive Item where
  | blank (blanks : Pad)
  | simple (y : Layout) (s : Simple)
  | ifThen (y : Layout) (q : Question) (body : Code) (rest : Branches)
  | whileLoop (y : Layout) (c : Comparison) (body : Code) (z : Layout)
  | foreachLoop (y : Layout) (name : Name) (items : Words) (body : Code) (z : Layout)
  | switchOn (y : Layout) (name : Name) (lead : Code) (arms : Arms)

/-- Parts one after the other, each an `Item`. -/
inductive Code where
  | nil
  | cons (first : Item) (rest : Code)

/-- What follows the first branch of an `if`, up to its `endif`. -/
inductive Branches where
  | endIf (y : Layout)
  | elseBranch (y : Layout) (body : Code) (z : Layout)
  | elseIf (y : Layout) (e : Equality) (body : Code) (rest : Branches)

/-- The arms of a switch, up to its `endsw`. -/
inductive Arms where
  | endSwitch (y : Layout)
  | caseArm (y : Layout) (pattern : Word) (body : Code) (rest : Arms)
  | defaultArm (y : Layout) (body : Code) (rest : Arms)

end

/-- A label and the code up to the next one. -/
structure Function where
  label : Name
  ne_default : label.text ≠ "default".toList
  /-- The blanks behind the colon. -/
  after : Pad
  body : Code

/-- A program: what stands before the first label, then the functions. -/
structure Program where
  preamble : Code
  functions : List Function

/-! ## The C shell script -/

mutual

/-- The lines of a part in the C shell. -/
def Item.csh : Item → List Text
  | .blank p => [p.text]
  | .simple y s => [y.line (s.csh y)]
  | .ifThen y q body rest => y.line (q.csh y) :: (body.csh ++ rest.csh)
  | .whileLoop y c body z =>
    y.line ("while" ++ y.enclose c.text []) :: (body.csh ++ [z.line ("end" ++ (z.pad 0).text)])
  | .foreachLoop y n ws body z =>
    y.line ("foreach" ++ ((y.gap 0).text ++ (n.text ++ y.enclose ws.text []))) ::
      (body.csh ++ [z.line ("end" ++ (z.pad 0).text)])
  | .switchOn y n lead arms =>
    y.line ("switch" ++ y.enclose ('$' :: n.text) []) :: (lead.csh ++ arms.csh)

/-- The lines of code in the C shell. -/
def Code.csh : Code → List Text
  | .nil => []
  | .cons first rest => first.csh ++ rest.csh

/-- The lines of the other branches in the C shell. -/
def Branches.csh : Branches → List Text
  | .endIf y => [y.line ("endif" ++ (y.pad 0).text)]
  | .elseBranch y body z =>
    y.line ("else" ++ (y.pad 0).text) :: (body.csh ++ [z.line ("endif" ++ (z.pad 0).text)])
  | .elseIf y e body rest =>
    y.line ("else" ++ ((y.gap 0).text ++ ("if" ++ y.enclose e.text ("then" ++ (y.pad 4).text)))) ::
      (body.csh ++ rest.csh)

/-- The lines of arms in the C shell. -/
def Arms.csh : Arms → List Text
  | .endSwitch y => [y.line ("endsw" ++ (y.pad 0).text)]
  | .caseArm y w body rest =>
    y.line ("case" ++ ((y.gap 0).text ++ (w.text ++ ((y.pad 0).text ++ ':' :: (y.pad 1).text)))) ::
      (body.csh ++ rest.csh)
  | .defaultArm y body rest =>
    y.line ("default" ++ ((y.pad 0).text ++ ':' :: (y.pad 1).text)) :: (body.csh ++ rest.csh)

end

/-- The lines of a function in the C shell. A label is not indented. -/
def Function.csh (f : Function) : List Text :=
  (f.label.text ++ ':' :: f.after.text) :: f.body.csh

/-- The lines of a program in the C shell, the `preamble` first. -/
def Program.csh (p : Program) : List Text := p.preamble.csh ++ p.functions.flatMap (·.csh)

/-! ## The Bash script -/

mutual

/-- The lines of a part in Bash. -/
def Item.bash : Item → List Text
  | .blank _ => [[]]
  | .simple y s => (s.bash y).map y.line
  | .ifThen y q body rest =>
    y.line ("if [ " ++ q.test ++ " ]; then") :: (body.bash ++ rest.bash)
  | .whileLoop y c body z =>
    y.line ("while [ " ++ c.test ++ " ]; do") :: (body.bash ++ [z.line "done"])
  | .foreachLoop y n ws body z =>
    y.line ("for " ++ n.text ++ " in " ++ ws.text ++ "; do") :: (body.bash ++ [z.line "done"])
  | .switchOn y n lead arms =>
    y.line ("case \"$" ++ n.text ++ "\" in") :: (lead.bash ++ arms.bash)

/-- The lines of code in Bash. -/
def Code.bash : Code → List Text
  | .nil => []
  | .cons first rest => first.bash ++ rest.bash

/-- The lines of the other branches in Bash. -/
def Branches.bash : Branches → List Text
  | .endIf y => [y.line "fi"]
  | .elseBranch y body z => y.line "else" :: (body.bash ++ [z.line "fi"])
  | .elseIf y e body rest =>
    y.line ("elif [ " ++ e.test ++ " ]; then") :: (body.bash ++ rest.bash)

/-- The lines of arms in Bash. -/
def Arms.bash : Arms → List Text
  | .endSwitch y => [y.line "esac"]
  | .caseArm y w body rest => y.line (w.text ++ ")") :: (body.bash ++ rest.bash)
  | .defaultArm y body rest => y.line "*)" :: (body.bash ++ rest.bash)

end

/-- The lines of a function in Bash. -/
def Function.bash (f : Function) : List Text :=
  (f.label.text ++ "() \x7b") :: (f.body.bash ++ ["\x7d".toList])

/-- The lines of a program in Bash: an empty line stands between two functions. -/
def Program.bash (p : Program) : List Text :=
  p.preamble.bash ++ [[]].intercalate (p.functions.map (·.bash))

/-! ## Runs over code -/

/-- From the function block `before` on, a run over the lines writes the output and ends in the
    block `after`. -/
structure Runs (before : Block) (lines output : List Text) (after : Block) : Prop where
  unbroken : ∀ raw ∈ lines, unbroken raw = true
  output : ∀ number, (Trace.ofLinesFrom number before lines).output = output
  block : ∀ number, (Trace.ofLinesFrom number before lines).block = after

namespace Runs

theorem nil (block : Block) : Runs block [] [] block := ⟨by simp, fun _ => rfl, fun _ => rfl⟩

theorem append {a b c : Block} {lines later output rest : List Text} (h : Runs a lines output b)
    (hlater : Runs b later rest c) : Runs a (lines ++ later) (output ++ rest) c := by
  refine ⟨List.forall_mem_append.2 ⟨h.unbroken, hlater.unbroken⟩, fun number => ?_, fun number => ?_⟩
  · have hfirst := h.output number
    have hrest := hlater.output (number + lines.length)
    simp only [Trace.output, Trace.ofLinesFrom_append, h.block, List.flatMap_append] at hfirst hrest ⊢
    rw [hfirst, hrest]
  · simp only [Trace.ofLinesFrom_append, h.block, hlater.block]

theorem step {a b : Block} {raw : Text} {output : List Text} (hraw : Text.unbroken raw = true)
    (h : ∀ number, (LineStep.ofRaw number a raw).record.output = output ∧
      (LineStep.ofRaw number a raw).block = b) : Runs a [raw] output b := by
  refine ⟨by simpa using hraw, fun number => ?_, fun number => (h number).2⟩
  simp [Trace.output, Trace.ofLinesFrom_cons, (h number).1]

/-- A line that `Writes` one line, and what follows it. -/
theorem line {block : Block} {body written : Text} {lines output : List Text}
    (h : Writes body [written]) (y : Layout) (hrest : Runs block lines output block) :
    Runs block (y.line body :: lines) (y.line written :: output) block :=
  (step (h.unbroken_line y) fun number => h.ofRaw_line number block y).append hrest

end Runs

-- One case for each kind of line; what a construct encloses is code again.
mutual

theorem Item.runs (block : Block) : (i : Item) → Runs block i.csh i.bash block
  | .blank p => .step p.unbroken fun number => ofRaw_blank number block p
  | .simple y s =>
    .step ((s.writes y).unbroken_line y) fun number => (s.writes y).ofRaw_line number block y
  | .ifThen y q body rest => .line (q.writes y) y ((body.runs block).append (rest.runs block))
  | .whileLoop y c body z =>
    .line (whileLoop_writes y c) y ((body.runs block).append (.line endLoop_writes z (.nil block)))
  | .foreachLoop y n ws body z =>
    .line (foreachLoop_writes y n ws) y
      ((body.runs block).append (.line endLoop_writes z (.nil block)))
  | .switchOn y n lead arms =>
    .line (switchOn_writes y n) y ((lead.runs block).append (arms.runs block))

theorem Code.runs (block : Block) : (c : Code) → Runs block c.csh c.bash block
  | .nil => .nil block
  | .cons first rest => (first.runs block).append (rest.runs block)

theorem Branches.runs (block : Block) : (b : Branches) → Runs block b.csh b.bash block
  | .endIf y => .line endIf_writes y (.nil block)
  | .elseBranch y body z =>
    .line elseBranch_writes y ((body.runs block).append (.line endIf_writes z (.nil block)))
  | .elseIf y e body rest => .line (elseIf_writes y e) y ((body.runs block).append (rest.runs block))

theorem Arms.runs (block : Block) : (a : Arms) → Runs block a.csh a.bash block
  | .endSwitch y => .line endSwitch_writes y (.nil block)
  | .caseArm y w body rest =>
    .line (caseArm_writes y w) y ((body.runs block).append (rest.runs block))
  | .defaultArm y body rest =>
    .line (defaultArm_writes y) y ((body.runs block).append (rest.runs block))

end

/-! ## Runs over functions -/

namespace Function

/-- A label as the text of its line, a `Remainder`. -/
def labelLine (f : Function) : Remainder where
  text := f.label.text ++ ':' :: f.after.text
  ne_nil := by simp
  starts := f.label.stops_isBlank _
  plain := by simp [isBreak]

/-- The rules take a label for one, whatever its name: only `default:` is something else. -/
theorem select_labelLine (f : Function) :
    Rule.select Rule.standard f.labelLine.text = (.label, .label f.label.text) := by
  have hopening : Rule.ofOpening f.labelLine.text = .label := by
    have hname : f.label.text.all isNameChar = true :=
      List.all_eq_true.2 (forall_of_isName f.label.valid)
    rw [labelLine, Rule.ofOpening_append hname rfl, Rule.called, if_pos List.head?_cons,
      if_neg f.label.ne_nil, if_neg f.ne_default]
  exact Rule.select_standard (by decide) hopening
    (Statement.label?_eq_some_iff.2 ⟨_, _, f.label.valid, f.after.isBlank_of_mem, rfl, rfl⟩)

/-- A run over a function begins it, and ends the one that is open: `labelLines` says how. -/
theorem runs (f : Function) (block : Block) :
    Runs block f.csh (block.labelLines f.label.text ++ f.body.bash) .opened := by
  have hlabel : Runs block [f.labelLine.text] (block.labelLines f.label.text) .opened := by
    refine .step (isPlain_iff.1 f.labelLine.plain).1 fun number => ?_
    have hstep := ofRaw_append number block ⟨[], rfl, rfl⟩ f.labelLine f.select_labelLine (by decide)
    simpa [Statement.outputLines, Statement.blockAfter] using hstep
  exact hlabel.append (f.body.runs .opened)

end Function

/-- A run over functions ends each one where the next begins. -/
theorem functions_run (fs : List Function) :
    Runs .opened (fs.flatMap (·.csh))
      (fs.flatMap fun f => Block.labelLines f.label.text .opened ++ f.body.bash) .opened := by
  induction fs with
  | nil => exact .nil .opened
  | cons f fs ih => exact (f.runs .opened).append ih

/-- `Block.finish` completes the last function at the end of the script. -/
theorem intercalate_bash (f : Function) (fs : List Function) :
    Block.labelLines f.label.text .closed ++ f.body.bash ++
        (fs.flatMap fun g => Block.labelLines g.label.text .opened ++ g.body.bash) ++
        Block.finish .opened =
      [[]].intercalate ((f :: fs).map (·.bash)) := by
  induction fs generalizing f with
  | nil => simp [Block.labelLines, Block.finish, Function.bash, Block.head, Block.tail]
  | cons g fs ih =>
    rw [List.map_cons, List.map_cons, List.intercalate_cons_cons, ← List.map_cons, ← ih g]
    simp [Block.labelLines, Function.bash, Block.head, Block.tail]

theorem Program.runs (p : Program) :
    ∃ output after, Runs .closed p.csh output after ∧ output ++ after.finish = p.bash := by
  cases hfunctions : p.functions with
  | nil =>
    refine ⟨p.preamble.bash, .closed, ?_, ?_⟩
    · simpa [csh, hfunctions] using p.preamble.runs .closed
    · simp [bash, hfunctions, Block.finish]
  | cons f fs =>
    have hruns := (p.preamble.runs .closed).append ((f.runs .closed).append (functions_run fs))
    refine ⟨_, .opened, by rwa [csh, hfunctions, List.flatMap_cons], ?_⟩
    rw [bash, hfunctions, ← intercalate_bash]
    simp only [List.append_assoc]

/-- **Whole programs are translated**: converting the script `csh` of a program gives its script
    `bash`, line by line and as a text, whatever ends the lines. -/
theorem Program.convertText_csh (settings : Settings) (p : Program) (eol : Terminator) :
    Script.convertLines settings p.csh = settings.interpreterLine :: p.bash ∧
      Script.convertText settings (unlines eol p.csh) =
        Script.fileText (settings.interpreterLine :: p.bash) := by
  obtain ⟨output, after, hruns, hbash⟩ := p.runs
  have hlines : Script.convertLines settings p.csh = settings.interpreterLine :: p.bash := by
    rw [← hbash, Script.convertLines, Trace.ofLines, hruns.output, hruns.block]
    rfl
  refine ⟨hlines, ?_⟩
  rw [Script.convertText, splitLines_unlines eol hruns.unbroken, hlines]
  exact join_append_eq_fileText (List.cons_ne_nil _ _)

-- A loop under a label, as both printers write it.
example :
    let none : Pad := ⟨[], rfl, rfl⟩
    let space : Gap := ⟨⟨" ".toList, by decide, by decide⟩, by decide⟩
    let y : Layout := ⟨none, fun _ => space, fun n => if n = 0 then space.toPad else none⟩
    let z : Layout := { y with indent := space.toPad }
    let again : Name := ⟨"again".toList, by decide⟩
    let ten : Value := .word ⟨"10".toList, by decide, by decide⟩
    let c : Comparison := ⟨⟨"i".toList, by decide⟩, true, space.toPad, .lt, space.toPad, ten⟩
    let body : Code := .cons (.simple z (.goto again)) .nil
    let f : Function := ⟨again, by decide, none, .cons (.whileLoop y c body y) .nil⟩
    let p : Program := ⟨.nil, [f]⟩
    unlines .lineFeed p.csh = "again:\nwhile ($i < 10)\n goto again \nend \n".toList ∧
      Script.fileText p.bash =
        "again() \x7b\nwhile [ \"$i\" -lt \"10\" ]; do\n again\n return\ndone\n\x7d\n".toList := by
  decide +kernel

end Csh
end Seashell
