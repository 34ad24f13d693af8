import Seashell.Block.Pool
import Seashell.Proofs.Functions

set_option autoImplicit false

/-! # Trackers that share a state

A `Pool` serves requests on many trackers, and several trackers may follow one state (`Cell`). Seen
from a state, a run of requests is the sequence of what was asked of it, through whichever tracker
(`Pool.acts`). The lines emitted on the state (`Pool.emitted`), and whether a function is open,
follow from that sequence alone: `Pool.emitted_eq`, by induction over the requests, of which each
does what it asks (`Pool.serve_of_asks?`) or leaves the state as it is
(`Pool.state_serve_of_asks?`).

So what is left to prove is about one state and a sequence of acts. There the lines that open a
function and those that end one take turns (`takesTurns`), by `Act.linesFrom_balanced`, and so they
do on every state of a pool, however the requests are mixed: `Pool.trackers_balanced`. -/

namespace Seashell.Block

open Text

/-! ## Openings and ends by turns -/

/-- Lines that open a function and lines that end one take turns, beginning with an opening if the
    block is `closed` and with an end otherwise. -/
def takesTurns : Block → List Text → Bool
  | _, [] => true
  | .closed, line :: lines => opensFunction line && takesTurns .opened lines
  | .opened, line :: lines => endsFunction line && takesTurns .closed lines

/-- The state that a line leaves behind: `opened` if the line opens a function. -/
def ofLine (line : Text) : Block := if opensFunction line then .opened else .closed

/-- The state that some lines leave behind, as the last of them says by `ofLine`. -/
def leftBy (block : Block) (lines : List Text) : Block := (lines.getLast?.map ofLine).getD block

theorem leftBy_append (block : Block) (first second : List Text) :
    leftBy block (first ++ second) = leftBy (leftBy block first) second := by
  unfold leftBy
  rw [List.getLast?_append]
  cases second.getLast? with
  | none => rfl
  | some line => rfl

theorem leftBy_closed_eq_opened {lines : List Text} :
    leftBy .closed lines = .opened ↔ lines.getLast?.any opensFunction = true := by
  unfold leftBy
  cases lines.getLast? with
  | none => decide
  | some line => simp [ofLine]

/-! ## What is asked of one state -/

/-- What a tracker asks of the `Block` that it follows. -/
inductive Act where
  | label (name : Text)
  | finish
deriving Repr, DecidableEq

namespace Act

/-- The name of the label that is asked for. -/
def name? : Act → Option Text
  | .label name => some name
  | .finish => none

/-- The state after an act. -/
def block : Act → Block
  | .label _ => .opened
  | .finish => .closed

/-- The lines that an act emits on the state `before`. -/
def lines (before : Block) : Act → List Text
  | .label name => List.splitOn '\n' (before.labelText name)
  | .finish => before.finish

/-- The state after some acts. -/
def blockAfter (before : Block) (acts : List Act) : Block := acts.foldl (fun _ act => act.block) before

/-- The `lines` that acts emit one after the other. -/
def linesFrom : Block → List Act → List Text
  | _, [] => []
  | before, act :: acts => act.lines before ++ linesFrom act.block acts

/-- The `lines` that an act emits, without the empty one that sets two functions apart. -/
def bareLines (before : Block) : Act → List Text
  | .label name => before.finish ++ [head name]
  | .finish => before.finish

theorem filter_lines {act : Act} (before : Block) (h : ∀ name ∈ act.name?, '\n' ∉ name) :
    (act.lines before).filter (!·.isEmpty) = act.bareLines before := by
  cases act with
  | finish => cases before <;> rfl
  | label name =>
    have hhead : (head name).isEmpty = false := by simp [head]
    rw [lines, splitOn_labelText (h name rfl), bareLines]
    cases before with
    | closed => simp [labelLines, Block.finish, hhead]
    | opened => simp [labelLines, Block.finish, tail, hhead]

/-- By `takesTurns` an act takes its turn, and leaves the turn to what its state calls for. -/
theorem takesTurns_bareLines (before : Block) (act : Act) (rest : List Text) :
    takesTurns before (act.bareLines before ++ rest) = takesTurns act.block rest := by
  have hend : endsFunction tail = true := by decide
  cases act with
  | finish => cases before <;> simp [bareLines, Block.finish, takesTurns, block, hend]
  | label name =>
    cases before <;> simp [bareLines, Block.finish, takesTurns, block, hend, opensFunction_head]

theorem leftBy_bareLines (before : Block) (act : Act) :
    leftBy before (act.bareLines before) = act.block := by
  have hend : ofLine tail = .closed := by decide
  cases act with
  | finish => cases before <;> simp [bareLines, Block.finish, leftBy, block, hend]
  | label name => simp [bareLines, leftBy, block, ofLine, opensFunction_head]

theorem filter_opensFunction_bareLines (before : Block) (act : Act) :
    (act.bareLines before).filter opensFunction = act.name?.toList.map head := by
  have hend : opensFunction tail = false := by decide
  cases act with
  | finish => cases before <;> simp [bareLines, Block.finish, name?, hend]
  | label name => cases before <;> simp [bareLines, Block.finish, name?, hend, opensFunction_head]

/-- **Acts on one state are balanced**: by turns `linesFrom` opens a function and ends it, the last
    line says whether a function is open, and the functions are those asked for, in order. -/
theorem linesFrom_balanced (before : Block) {acts : List Act}
    (h : ∀ act ∈ acts, ∀ name ∈ act.name?, '\n' ∉ name) :
    let emitted := (linesFrom before acts).filter (!·.isEmpty)
    takesTurns before emitted = true ∧ leftBy before emitted = blockAfter before acts ∧
      emitted.filter opensFunction = (acts.filterMap (·.name?)).map head := by
  induction acts generalizing before with
  | nil => exact ⟨by cases before <;> rfl, rfl, rfl⟩
  | cons act acts ih =>
    obtain ⟨hact, hacts⟩ := List.forall_mem_cons.1 h
    obtain ⟨hturns, hleft, hopen⟩ := ih act.block hacts
    have hsplit : (linesFrom before (act :: acts)).filter (!·.isEmpty) =
        act.bareLines before ++ (linesFrom act.block acts).filter (!·.isEmpty) := by
      rw [linesFrom, List.filter_append, filter_lines before hact]
    dsimp only
    rw [hsplit]
    refine ⟨?_, ?_, ?_⟩
    · rw [takesTurns_bareLines, hturns]
    · rw [leftBy_append, leftBy_bareLines, hleft, blockAfter, blockAfter, List.foldl_cons]
    · rw [List.filter_append, filter_opensFunction_bareLines, hopen, ← List.map_append]
      cases act <;> rfl

end Act

/-! ## What requests ask of a state -/

/-- The label that a request opens has no line break in it. -/
def Request.isUnbroken : Request → Bool
  | .label _ name => !name.contains '\n'
  | _ => true

/-- What a request asks of the state `cell`: something if the tracker that it names follows the
    state. -/
def Request.asks? (p : Pool) (cell : Cell) : Request → Option Act
  | .create _ _ => none
  | .label tracker name => if p.trackers.lookup tracker = some cell then some (.label name) else none
  | .finish tracker => if p.trackers.lookup tracker = some cell then some .finish else none

/-- The state that a request makes a tracker follow. -/
def Request.makes? (p : Pool) : Request → Option Cell
  | .create _ (some name) => some (.shared name)
  | .create _ none => some (.own p.next)
  | _ => none

/-- The lines of an answer. -/
def Reply.toLines : Reply → List Text
  | .created => []
  | .text t => List.splitOn '\n' t
  | .lines ls => ls

namespace Pool

/-- The pool after a request; one that names no tracker is refused and changes nothing. -/
def serve (p : Pool) (r : Request) : Pool := ((p.step r).map (·.1)).getD p

/-- The pool after some requests, by `serve` of each. -/
def serveAll (p : Pool) (rs : List Request) : Pool := rs.foldl serve p

/-- The lines that a request is answered with. -/
def answer (p : Pool) (r : Request) : List Text := ((p.step r).map (·.2.toLines)).getD []

/-- What requests ask of the state `cell` one after the other, through whichever tracker. -/
def acts (cell : Cell) : Pool → List Request → List Act
  | _, [] => []
  | p, r :: rs => (r.asks? p cell).toList ++ acts cell (p.serve r) rs

/-- The lines that all trackers of the state `cell` emit along some requests. -/
def emitted (cell : Cell) : Pool → List Request → List Text
  | _, [] => []
  | p, r :: rs =>
    (if (r.asks? p cell).isSome then p.answer r else []) ++ emitted cell (p.serve r) rs

/-- The states that requests make trackers follow, by `makes?`. -/
def made : Pool → List Request → List Cell
  | _, [] => []
  | p, r :: rs => (r.makes? p).toList ++ made (p.serve r) rs

/-! ## One request -/

theorem state_put (p : Pool) (cell other : Cell) (block : Block) :
    state { p with cells := Assoc.put other block p.cells } cell =
      if cell = other then block else p.state cell := by
  unfold state
  rw [Assoc.lookup_put]
  by_cases h : cell = other
  · simp [h]
  · simp [h]

/-- A request that `asks?` something of the state does so. -/
theorem serve_of_asks? {p : Pool} {cell : Cell} {r : Request} {act : Act}
    (h : r.asks? p cell = some act) :
    (p.serve r).state cell = act.block ∧ p.answer r = act.lines (p.state cell) := by
  cases r with
  | create tracker shared => simp [Request.asks?] at h
  | label tracker name | finish tracker =>
    obtain ⟨htracker, rfl⟩ : p.trackers.lookup tracker = some cell ∧ _ = act := by
      simpa [Request.asks?] using h
    unfold serve answer
    simp only [step, htracker, Option.map_some, Option.getD_some, state_put]
    exact ⟨rfl, rfl⟩

/-- A request that `asks?` nothing of the state leaves it as it is. -/
theorem state_serve_of_asks? {p : Pool} {cell : Cell} {r : Request}
    (h : r.asks? p cell = none) : (p.serve r).state cell = p.state cell := by
  cases r with
  | create tracker shared => cases shared <;> rfl
  | label tracker name | finish tracker =>
    have hother : p.trackers.lookup tracker ≠ some cell := by simpa [Request.asks?] using h
    unfold serve
    cases htracker : p.trackers.lookup tracker with
    | none => simp [step, htracker]
    | some other =>
      have hne : cell ≠ other := fun he => hother (by rw [htracker, he])
      simp only [step, htracker, Option.map_some, Option.getD_some, state_put, if_neg hne]

/-! ## A run of requests -/

/-- What is `emitted` on a state, and the state itself, follow from what is asked of it. -/
theorem emitted_eq (p : Pool) (cell : Cell) (rs : List Request) :
    p.emitted cell rs = Act.linesFrom (p.state cell) (p.acts cell rs) ∧
      (p.serveAll rs).state cell = Act.blockAfter (p.state cell) (p.acts cell rs) := by
  induction rs generalizing p with
  | nil => exact ⟨rfl, rfl⟩
  | cons r rs ih =>
    obtain ⟨hlines, hstate⟩ := ih (p.serve r)
    rw [emitted, acts, serveAll, List.foldl_cons, ← serveAll, hlines, hstate]
    cases hasks : r.asks? p cell with
    | none => simp [state_serve_of_asks? hasks]
    | some act =>
      obtain ⟨hblock, hanswer⟩ := serve_of_asks? hasks
      simp [hblock, hanswer, Act.linesFrom, Act.blockAfter]

theorem serveAll_append (p : Pool) (first second : List Request) :
    p.serveAll (first ++ second) = (p.serveAll first).serveAll second := List.foldl_append

theorem emitted_append (p : Pool) (cell : Cell) (first second : List Request) :
    p.emitted cell (first ++ second) =
      p.emitted cell first ++ (p.serveAll first).emitted cell second := by
  induction first generalizing p with
  | nil => rfl
  | cons r rs ih =>
    rw [List.cons_append, emitted, emitted, ih, List.append_assoc]
    rfl

/-- What is asked of a state was asked by some request of the run. -/
theorem isUnbroken_of_mem_acts {p : Pool} {cell : Cell} {rs : List Request} {act : Act}
    (h : ∀ r ∈ rs, r.isUnbroken = true) (hact : act ∈ p.acts cell rs) :
    ∀ name ∈ act.name?, '\n' ∉ name := by
  induction rs generalizing p with
  | nil => simp [acts] at hact
  | cons r rs ih =>
    obtain ⟨hr, hrs⟩ := List.forall_mem_cons.1 h
    rcases List.mem_append.1 hact with hm | hm
    · have hasks : r.asks? p cell = some act := by simpa using hm
      cases r with
      | create tracker shared => simp [Request.asks?] at hasks
      | finish tracker =>
        obtain ⟨_, rfl⟩ : p.trackers.lookup tracker = some cell ∧ Act.finish = act := by
          simpa [Request.asks?] using hasks
        simp [Act.name?]
      | label tracker name =>
        obtain ⟨_, rfl⟩ : p.trackers.lookup tracker = some cell ∧ Act.label name = act := by
          simpa [Request.asks?] using hasks
        simpa [Act.name?, Request.isUnbroken] using hr
    · exact ih hrs hm

/-! ## The making of states -/

/-- A request that `makes?` no tracker leaves the trackers and the next serial number as they
    are. -/
theorem serve_of_makes? {p : Pool} {r : Request} (h : r.makes? p = none) :
    (p.serve r).trackers = p.trackers ∧ (p.serve r).next = p.next := by
  cases r with
  | create tracker shared => cases shared <;> simp [Request.makes?] at h
  | label tracker name | finish tracker =>
    unfold serve
    cases htracker : p.trackers.lookup tracker with
    | none | some cell => simp [step, htracker]

/-- After `serve` a tracker follows the state that it followed before, or the one that the request
    makes. -/
theorem mem_trackers_serve {p : Pool} {r : Request} {e : Text × Cell}
    (h : e ∈ (p.serve r).trackers) : e ∈ p.trackers ∨ r.makes? p = some e.2 := by
  cases hmakes : r.makes? p with
  | none =>
    rw [(serve_of_makes? hmakes).1] at h
    exact .inl h
  | some cell =>
    cases r with
    | create tracker shared =>
      cases shared with
      | some name | none =>
        rcases Assoc.mem_put h with rfl | hold
        · exact .inr hmakes.symm
        · exact .inl hold
    | label tracker name | finish tracker => simp [Request.makes?] at hmakes

/-- Nothing is asked of a state before it is `made`. -/
theorem acts_of_not_mem_made {p : Pool} {cell : Cell} {rs : List Request}
    (hfree : ∀ e ∈ p.trackers, e.2 ≠ cell) (h : cell ∉ p.made rs) : p.acts cell rs = [] := by
  induction rs generalizing p with
  | nil => rfl
  | cons r rs ih =>
    rw [made, List.mem_append, not_or, Option.mem_toList] at h
    have hasks : r.asks? p cell = none := by
      cases r with
      | create tracker shared => rfl
      | label tracker name | finish tracker =>
        exact if_neg fun he => hfree _ (Assoc.mem_of_lookup he) rfl
    rw [acts, hasks, ih (fun e he => ?_) h.2]
    · rfl
    · rcases mem_trackers_serve he with hold | hmade
      · exact hfree e hold
      · exact fun hcell => h.1 (hcell ▸ hmade)

theorem next_le_serveAll (p : Pool) (rs : List Request) : p.next ≤ (p.serveAll rs).next := by
  induction rs generalizing p with
  | nil => exact Nat.le_refl _
  | cons r rs ih =>
    refine Nat.le_trans ?_ (ih (p.serve r))
    cases hmakes : r.makes? p with
    | none => exact Nat.le_of_eq (serve_of_makes? hmakes).2.symm
    | some cell =>
      cases r with
      | create tracker shared => cases shared <;> simp [serve, step, create]
      | label tracker name | finish tracker => simp [Request.makes?] at hmakes

/-- Every state of one tracker has a serial number below the next one. -/
theorem lt_next_of_mem_made {p : Pool} {serial : Nat} {rs : List Request}
    (h : .own serial ∈ p.made rs) : serial < (p.serveAll rs).next := by
  induction rs generalizing p with
  | nil => simp [made] at h
  | cons r rs ih =>
    rcases List.mem_append.1 h with hm | hm
    · have hmakes : r.makes? p = some (.own serial) := by simpa using hm
      cases r with
      | create tracker shared =>
        cases shared with
        | some name => simp [Request.makes?] at hmakes
        | none =>
          obtain rfl : p.next = serial := by simpa [Request.makes?] using hmakes
          exact next_le_serveAll (p.serve (.create tracker none)) rs
      | label tracker name | finish tracker => simp [Request.makes?] at hmakes
    · exact ih hm

/-- **Trackers are balanced however they share states.** On every state, the lines that its trackers
    emit (`emitted`) open a function and end it by turns, beginning with an opening; a function is
    open if the last line is an opening; and the openings are those that were asked for, in order.
    All of this begins when the state is made, as a closed one. A request on a tracker of another
    state leaves the state as it is, and two runs that ask the same of the state emit the same on it
    and leave the same state. A tracker without a shared state gets one that no tracker followed
    before. -/
theorem trackers_balanced (rs : List Request) (h : ∀ r ∈ rs, r.isUnbroken = true) (cell : Cell) :
    let lines := (empty.emitted cell rs).filter (!·.isEmpty)
    let after := fun requests => empty.serveAll requests
    takesTurns .closed lines = true ∧
      ((after rs).state cell = .opened ↔ lines.getLast?.any opensFunction = true) ∧
      lines.filter opensFunction = ((empty.acts cell rs).filterMap (·.name?)).map head ∧
      (∀ past later, rs = past ++ later → cell ∉ empty.made past →
        (after past).state cell = .closed ∧ empty.emitted cell rs = (after past).emitted cell later) ∧
      (∀ past r later, rs = past ++ r :: later → r.asks? (after past) cell = none →
        (after (past ++ [r])).state cell = (after past).state cell) ∧
      (∀ others, empty.acts cell others = empty.acts cell rs →
        empty.emitted cell others = empty.emitted cell rs ∧
          (after others).state cell = (after rs).state cell) ∧
      ∀ past tracker later, rs = past ++ .create tracker none :: later →
        .own (after past).next ∉ empty.made past := by
  intro lines after
  have hclosed : empty.state cell = .closed := rfl
  obtain ⟨hemitted, hstate⟩ := emitted_eq empty cell rs
  obtain ⟨hturns, hleft, hopen⟩ :=
    Act.linesFrom_balanced (empty.state cell) fun act hact => isUnbroken_of_mem_acts h hact
  refine ⟨?_, ?_, ?_, ?_, ?_, ?_, ?_⟩
  · rw [← hemitted] at hturns
    exact hturns
  · rw [← leftBy_closed_eq_opened]
    rw [← hemitted, ← hstate] at hleft
    rw [← hclosed, hleft]
  · rw [← hemitted] at hopen
    exact hopen
  · rintro past later rfl hmade
    have hacts : empty.acts cell past = [] :=
      acts_of_not_mem_made (fun e he => absurd he List.not_mem_nil) hmade
    obtain ⟨hpast, hafter⟩ := emitted_eq empty cell past
    rw [hacts] at hpast hafter
    rw [emitted_append, hpast]
    exact ⟨hafter, rfl⟩
  · rintro past r later rfl hasks
    change (empty.serveAll (past ++ [r])).state cell = _
    rw [serveAll_append]
    exact state_serve_of_asks? hasks
  · intro others hothers
    obtain ⟨hlines, hblock⟩ := emitted_eq empty cell others
    rw [hothers] at hlines hblock
    exact ⟨hlines.trans hemitted.symm, hblock.trans hstate.symm⟩
  · rintro past tracker later rfl hmade
    exact Nat.lt_irrefl _ (lt_next_of_mem_made hmade)

/-- Two trackers share a state, and the requests on them are mixed with those on a third one, which
    has two states of its own one after the other. -/
theorem trackers_balanced_mixed :
    let cell : Cell := .shared "s"
    let rs : List Request := [.create "a" (some "s"), .create "c" none, .label "a" "x", .label "c" "p",
      .create "b" (some "s"), .finish "d", .label "b" "y", .create "c" none, .finish "c", .finish "a",
      .finish "b", .label "c" "q", .label "b" "z"]
    (∀ r ∈ rs, r.isUnbroken = true) ∧
      empty.emitted cell rs = [head "x", tail, [], head "y", tail, head "z"] ∧
      takesTurns .closed ((empty.emitted cell rs).filter (!·.isEmpty)) = true ∧
      (empty.serveAll rs).state cell = .opened := by
  intro cell rs
  have h : ∀ r ∈ rs, r.isUnbroken = true := List.all_eq_true.1 (by decide)
  obtain ⟨hturns, hopened, _⟩ := trackers_balanced rs h cell
  exact ⟨h, by decide, hturns, hopened.2 (by decide)⟩

end Pool
end Seashell.Block
