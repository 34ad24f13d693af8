import Seashell.Assoc
import Seashell.Block

set_option autoImplicit false

/-! # Trackers of function blocks

Several trackers may follow function blocks at a time, each on a block state of its own or on one
that it shares with others by a name. A `Pool` holds the states and says which `Cell` each tracker
follows.

A caller talks to a pool in requests. `Pool.step` handles one: `Request.create` makes a tracker,
`Request.label` opens its cell and answers with the text that the label makes, and `Request.finish`
closes it and answers with the lines that end it. The last cell that a tracker followed stays in the
pool when another tracker takes its name, since a shared cell may have other followers. -/

namespace Seashell.Block

/-- A block state in a `Pool`: one that trackers share by name, or the own state of one tracker, by
    a serial number. -/
inductive Cell where
  | shared (name : Text)
  | own (serial : Nat)
deriving Repr, DecidableEq

/-- Trackers by name, the state of every `Cell` that was opened, and the next serial number. -/
structure Pool where
  trackers : List (Text × Cell)
  cells : List (Cell × Block)
  next : Nat
deriving Repr, DecidableEq

/-- What a caller asks of a `Pool`. -/
inductive Request where
  | create (tracker : Text) (shared : Option Text)
  | label (tracker label : Text)
  | finish (tracker : Text)
deriving Repr, DecidableEq

/-- What a `Pool` answers to a `Request`. -/
inductive Reply where
  | created
  | text (t : Text)
  | lines (ls : List Text)
deriving Repr, DecidableEq

namespace Pool

/-- The pool without trackers. -/
def empty : Pool := ⟨[], [], 0⟩

/-- The state of `cell`; a cell that was never opened is closed. -/
def state (p : Pool) (cell : Cell) : Block := (p.cells.lookup cell).getD .closed

/-- Makes a tracker, in place of an older one of the same name. It shares the cell of a given name,
    or gets one of its own. -/
def create (p : Pool) (tracker : Text) : Option Text → Pool
  | some name => { p with trackers := Assoc.put tracker (.shared name) p.trackers }
  | none =>
    { p with trackers := Assoc.put tracker (.own p.next) p.trackers, next := p.next + 1 }

/-- Handles a `Request`; `none` if it names a tracker that does not exist. -/
def step (p : Pool) : Request → Option (Pool × Reply)
  | .create tracker shared => some (p.create tracker shared, .created)
  | .label tracker label =>
    (p.trackers.lookup tracker).map fun cell =>
      ({ p with cells := Assoc.put cell .opened p.cells }, .text (labelText label (p.state cell)))
  | .finish tracker =>
    (p.trackers.lookup tracker).map fun cell =>
      ({ p with cells := Assoc.put cell .closed p.cells }, .lines (p.state cell).finish)

/-- Every tracker with the `state` of the cell that it follows. -/
def current (p : Pool) : List (Text × Block) :=
  p.trackers.map fun (tracker, cell) => (tracker, p.state cell)

end Pool
end Seashell.Block
