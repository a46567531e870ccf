import ScopeChain.Cell

/-!
Cells with the handles to them.  A new cell comes with its first handle, and sharing a handle makes
another one to the same cell; no handle is made twice.  A handle is gone once it is dropped or the
contents are taken out through it.  A borrow runs through a handle until it is released, and as long
as it runs the handle stays.
-/

namespace ScopeChain

/-- One of the handles that are made. -/
structure Handle where
  index : Nat
deriving DecidableEq, Inhabited, Repr

/-- A borrow that runs, through the handle by which it was made. -/
structure Loan where
  handle : Handle
  exclusive : Bool
deriving DecidableEq, Inhabited, Repr

structure SharedCells (α : Type) where
  cells : Cells α
  /-- The cell of each handle at its place, or nothing when the handle is gone. -/
  handles : Array (Option CellRef)
  /-- The borrows that run, the latest first. -/
  loans : List Loan
deriving Inhabited

/-- What can be done with cells through their handles. -/
inductive CellAction (α : Type) where
  | new (x : α)
  | share (h : Handle)
  | drop (h : Handle)
  | take (h : Handle)
  | count (h : Handle)
  | compare (h other : Handle)
  | read (h : Handle)
  | write (h : Handle) (change : α → α)
  | borrow (l : Loan)
  /-- Read through a borrow that runs. -/
  | readLoan (l : Loan)
  /-- Write through an exclusive borrow that runs. -/
  | writeLoan (h : Handle) (change : α → α)
  | release (l : Loan)

inductive CellResult (α : Type) where
  | done
  /-- A handle was made. -/
  | handle (h : Handle)
  | contents (x : α)
  | number (n : Nat)
  | flag (b : Bool)
  /-- The contents were taken out. -/
  | taken (x : α)
  /-- The contents stay, since there are so many handles. -/
  | stillShared (handles : Nat)
  /-- A borrow that runs forbids it. -/
  | refused
  /-- There is no such handle or no such borrow. -/
  | absent
deriving DecidableEq, Inhabited, Repr

namespace SharedCells

variable {α : Type}

def empty : SharedCells α :=
  ⟨.empty, #[], []⟩

/-- The cell of a handle. -/
def cell? (s : SharedCells α) (h : Handle) : Option CellRef :=
  s.handles[h.index]?.join

/-- Whether the handle was made and is not gone. -/
def isLive (s : SharedCells α) (h : Handle) : Bool :=
  (s.cell? h).isSome

/-- Whether a borrow runs through the handle. -/
def isLent (s : SharedCells α) (h : Handle) : Bool :=
  s.loans.any fun l => l.handle = h

/-- The handle that is made next. -/
def next (s : SharedCells α) : Handle :=
  ⟨s.handles.size⟩

/-- Make a handle to a cell, with the cells as they are afterwards. -/
def give (s : SharedCells α) (cells : Cells α) (k : CellRef) : SharedCells α :=
  { s with cells, handles := s.handles.push (some k) }

/-- Give up a handle, with the cells as they are afterwards. -/
def giveUp (s : SharedCells α) (cells : Cells α) (h : Handle) : SharedCells α :=
  { s with cells, handles := s.handles.setIfInBounds h.index none }

/-- Do something with the cell of a handle. -/
def performAt (s : SharedCells α) (h : Handle)
    (operation : SharedCells α → CellRef → SharedCells α × CellResult α) :
    SharedCells α × CellResult α :=
  match s.cell? h with
  | none => (s, .absent)
  | some k => operation s k

/-- Do something with the cell of a borrow that runs. -/
def performLoan (s : SharedCells α) (l : Loan)
    (operation : SharedCells α → CellRef → SharedCells α × CellResult α) :
    SharedCells α × CellResult α :=
  if l ∈ s.loans then s.performAt l.handle operation else (s, .absent)

def perform (s : SharedCells α) : CellAction α → SharedCells α × CellResult α
  | .new x =>
      let h := s.next
      match s.cells.new x with
      | (cells, k) => (s.give cells k, .handle h)
  | .share h => s.performAt h fun s k =>
      let g := s.next
      (s.give (s.cells.share k) k, .handle g)
  | .drop h => s.performAt h fun s k =>
      if s.isLent h then (s, .refused) else (s.giveUp (s.cells.drop k) h, .done)
  | .take h => s.performAt h fun s k =>
      if s.isLent h then (s, .refused)
      else
        match s.cells.take k with
        | (cells, .ok x) => (s.giveUp cells h, .taken x)
        | (_, .error n) => (s, .stillShared n)
  | .count h => s.performAt h fun s k => (s, .number (s.cells.count k))
  | .compare h other => s.performAt h fun s k => s.performAt other fun s l => (s, .flag (k == l))
  | .read h => s.performAt h fun s k =>
      match s.cells.read? k with
      | some x => (s, .contents x)
      | none => (s, .refused)
  | .write h change => s.performAt h fun s k =>
      match s.cells.write? k change with
      | some cells => ({ s with cells }, .done)
      | none => (s, .refused)
  | .borrow l => s.performAt l.handle fun s k =>
      match if l.exclusive then s.cells.borrowExclusively? k else s.cells.borrow? k with
      | some cells => ({ s with cells, loans := l :: s.loans }, .done)
      | none => (s, .refused)
  | .readLoan l => s.performLoan l fun s k =>
      match s.cells.cell? k with
      | some c => (s, .contents c.contents)
      | none => (s, .absent)
  | .writeLoan h change => s.performLoan ⟨h, true⟩ fun s k =>
      ({ s with cells := s.cells.writeBorrowed k change }, .done)
  | .release l => s.performLoan l fun s k =>
      ({ s with cells := s.cells.release k, loans := s.loans.erase l }, .done)

def performAll (s : SharedCells α) : List (CellAction α) → SharedCells α × List (CellResult α)
  | [] => (s, [])
  | a :: rest =>
      match s.perform a with
      | (s, r) =>
          match performAll s rest with
          | (s, rs) => (s, r :: rs)

end SharedCells

end ScopeChain
