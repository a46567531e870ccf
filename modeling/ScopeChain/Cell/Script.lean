import ScopeChain.Cell.Shared
import ScopeChain.Shape
import Std.Data.TreeMap.Basic

/-!
Scripts on shared cells that hold lists of integers.  Handles live in registers, and a step may hold
a borrowed handle of its own while it runs the steps inside it.  Reading and writing against a borrow
is answered as a failure of that step; holding against a borrow breaks the script off.
-/

namespace ScopeChain.CellScript

/-- What a step does with a handle. -/
inductive Use where
  /-- Put another handle to the same cell into a register. -/
  | share (dest : String)
  | read
  /-- Write an item after the others. -/
  | push (item : Int64)
  | describe
  | count
  | compare (other : String)
  | drop
  | take
  /-- What is no use. -/
  | invalid
deriving DecidableEq, Inhabited, Repr

/-- A step on cells; `handle` is the register of the handle through which it works. -/
inductive Step where
  /-- Make a cell and put its handle into a register. -/
  | new (dest : String) (items : List Int64)
  | use (handle : String) (u : Use)
  /-- Run steps while the cell is borrowed.  An exclusive hold writes one item before it ends. -/
  | hold (handle : String) (exclusive : Bool) (body : List Step)
deriving Inhabited, Repr

/-- What a step answers. -/
inductive Answer where
  | done
  | items (xs : List Int64)
  | number (n : Nat)
  | flag (b : Bool)
  | description (debug pretty : String)
  /-- The contents that were taken out. -/
  | taken (xs : List Int64)
  /-- The contents stay, since there are so many handles. -/
  | stillShared (handles : Nat)
  /-- A hold begins. -/
  | holding
  /-- A hold is over, and the cell holds these items. -/
  | released (xs : List Int64)
  /-- The register is empty. -/
  | noCell
  /-- The cell is borrowed exclusively and cannot be read. -/
  | notReadable
  /-- The cell is borrowed and cannot be written. -/
  | notWritable
  | badStep
deriving DecidableEq, Inhabited, Repr

/-- The state of a running script. -/
structure State where
  shared : SharedCells (List Int64)
  registers : Std.TreeMap String Handle
  answers : Array Answer
deriving Inhabited

namespace State

def empty : State :=
  ⟨.empty, ∅, #[]⟩

def answer (s : State) (a : Answer) : State :=
  { s with answers := s.answers.push a }

def perform (s : State) (a : CellAction (List Int64)) : State × CellResult (List Int64) :=
  match s.shared.perform a with
  | (shared, r) => ({ s with shared }, r)

/-- Put a handle into a register; a handle that was there is dropped. -/
def store (s : State) (dest : String) (h : Handle) : State :=
  let s := match s.registers[dest]? with
    | some old => (s.perform (.drop old)).1
    | none => s
  { s with registers := s.registers.insert dest h }

/-- Take the handle out of a register. -/
def forget (s : State) (register : String) : State :=
  { s with registers := s.registers.erase register }

/-- The contents that a reading gave; a reading through a handle or a borrow that is known to be
there gives them. -/
def contentsOf : CellResult (List Int64) → List Int64
  | .contents xs => xs
  | _ => []

/-- The shape of a handle: what reading through it gave, if the cell can be read. -/
def shape (r : CellResult (List Int64)) : Shape :=
  let contents := match r with
    | .contents xs => .list (xs.map fun x => .atom (toString x.toInt))
    | _ => .atom "<borrowed>"
  .wrap "LocalScope" (.record "RefCell" [("value", contents)])

/-- Begin a hold: another handle to the cell, and a borrow through it if the others allow that. -/
def beginHold? (s : State) (h : Handle) (exclusive : Bool) : Option (State × Loan) :=
  match s.perform (.share h) with
  | (s, .handle g) =>
      let l : Loan := ⟨g, exclusive⟩
      match s.perform (.borrow l) with
      | (s, .done) => some (s, l)
      | _ => none
  | _ => none

/-- End a hold: an exclusive one writes an item, the borrow ends, and the handle is dropped. -/
def endHold (s : State) (l : Loan) : State :=
  let s := if l.exclusive then (s.perform (.writeLoan l.handle (· ++ [-1]))).1 else s
  match s.perform (.readLoan l) with
  | (s, r) =>
      let s := (s.perform (.release l)).1
      let s := (s.perform (.drop l.handle)).1
      s.answer (.released (contentsOf r))

/-- Use the handle `h` that is in the register `handle`. -/
def use (s : State) (handle : String) (h : Handle) : Use → State
  | .share dest =>
      match s.perform (.share h) with
      | (s, .handle g) => (s.store dest g).answer .done
      | (s, _) => s.answer .noCell
  | .read =>
      match s.perform (.read h) with
      | (s, .contents xs) => s.answer (.items xs)
      | (s, _) => s.answer .notReadable
  | .push item =>
      match s.perform (.write h (· ++ [item])) with
      | (s, .done) =>
          match s.perform (.read h) with
          | (s, r) => s.answer (.number (contentsOf r).length)
      | (s, _) => s.answer .notWritable
  | .describe =>
      match s.perform (.read h) with
      | (s, r) => s.answer (.description (shape r).line (shape r).pretty)
  | .count =>
      match s.perform (.count h) with
      | (s, .number n) => s.answer (.number n)
      | (s, _) => s.answer .noCell
  | .compare other =>
      match s.registers[other]? with
      | none => s.answer .noCell
      | some g =>
          match s.perform (.compare h g) with
          | (s, .flag b) => s.answer (.flag b)
          | (s, _) => s.answer .noCell
  | .drop => ((s.perform (.drop h)).1.forget handle).answer .done
  | .take =>
      match s.perform (.take h) with
      | (s, .taken xs) => (s.forget handle).answer (.taken xs)
      | (s, .stillShared n) => s.answer (.stillShared n)
      | (s, _) => s.answer .noCell
  | .invalid => s.answer .badStep

mutual

/-- Run one step, unless it is a hold of a cell whose borrows forbid it. -/
def step? (s : State) : Step → Option State
  | .new dest items =>
      match s.perform (.new items) with
      | (s, .handle h) => some ((s.store dest h).answer .done)
      | (s, _) => some (s.answer .noCell)
  | .use handle u =>
      match s.registers[handle]? with
      | none => some (s.answer .noCell)
      | some h => some (s.use handle h u)
  | .hold handle exclusive body =>
      match s.registers[handle]? with
      | none => some (s.answer .noCell)
      | some h =>
          match s.beginHold? h exclusive with
          | none => none
          | some (s, l) =>
              match steps? (s.answer .holding) body with
              | none => none
              | some s => some (s.endHold l)

/-- Run steps one after the other, unless a hold among them is forbidden. -/
def steps? (s : State) : List Step → Option State
  | [] => some s
  | x :: rest =>
      match step? s x with
      | none => none
      | some s => steps? s rest

end

end State

/-- The answers of a script.  A script breaks off, without answers, when it comes to a hold of a cell
that is borrowed exclusively or to an exclusive hold of a cell that is borrowed at all. -/
def run? (script : List Step) : Option (Array Answer) :=
  (State.empty.steps? script).map State.answers

end ScopeChain.CellScript
