/-!
Shared cells.  A cell is reached through handles and lives as long as one of them: sharing a handle
makes another one to the same cell, and dropping the last one ends the cell.  While a cell is
borrowed by readers it cannot be written, and while it is borrowed exclusively it cannot be read
either.
-/

namespace ScopeChain

/-- A handle to a cell; two handles are equal when they are to the same cell. -/
structure CellRef where
  index : Nat
deriving DecidableEq, Inhabited, Repr

inductive Borrow where
  | free
  /-- By so many readers, and one more. -/
  | shared (others : Nat)
  | exclusive
deriving DecidableEq, Inhabited, Repr

structure Cell (α : Type) where
  contents : α
  /-- The number of handles to the cell. -/
  handles : Nat
  borrow : Borrow
deriving Inhabited, Repr

structure Cells (α : Type) where
  /-- Each cell at its place, or nothing when it has ended. -/
  cells : Array (Option (Cell α))
deriving Inhabited, Repr

namespace Cells

variable {α : Type}

def empty : Cells α :=
  ⟨#[]⟩

def cell? (cs : Cells α) (h : CellRef) : Option (Cell α) :=
  cs.cells[h.index]?.join

/-- Put another cell in the place of a cell, or nothing. -/
def put (cs : Cells α) (h : CellRef) (c : Option (Cell α)) : Cells α :=
  ⟨cs.cells.setIfInBounds h.index c⟩

/-- Make a cell and its first handle. -/
def new (cs : Cells α) (x : α) : Cells α × CellRef :=
  let h := ⟨cs.cells.size⟩
  (⟨cs.cells.push (some ⟨x, 1, .free⟩)⟩, h)

/-- Make another handle to the cell. -/
def share (cs : Cells α) (h : CellRef) : Cells α :=
  match cs.cell? h with
  | some c => cs.put h (some { c with handles := c.handles + 1 })
  | none => cs

/-- Drop one handle; the cell ends with the last one. -/
def drop (cs : Cells α) (h : CellRef) : Cells α :=
  match cs.cell? h with
  | some c =>
      if c.handles ≤ 1 then cs.put h none
      else cs.put h (some { c with handles := c.handles - 1 })
  | none => cs

def count (cs : Cells α) (h : CellRef) : Nat :=
  match cs.cell? h with
  | some c => c.handles
  | none => 0

/-- The contents of the cell, unless it is borrowed exclusively. -/
def read? (cs : Cells α) (h : CellRef) : Option α :=
  match cs.cell? h with
  | some ⟨_, _, .exclusive⟩ | none => none
  | some c => some c.contents

/-- Change the contents of the cell, unless it is borrowed. -/
def write? (cs : Cells α) (h : CellRef) (change : α → α) : Option (Cells α) :=
  match cs.cell? h with
  | some ⟨x, handles, .free⟩ => some (cs.put h (some ⟨change x, handles, .free⟩))
  | _ => none

/-- Borrow the cell for reading, unless it is borrowed exclusively. -/
def borrow? (cs : Cells α) (h : CellRef) : Option (Cells α) :=
  match cs.cell? h with
  | some ⟨x, handles, .free⟩ => some (cs.put h (some ⟨x, handles, .shared 0⟩))
  | some ⟨x, handles, .shared n⟩ => some (cs.put h (some ⟨x, handles, .shared (n + 1)⟩))
  | _ => none

/-- Borrow the cell exclusively, unless it is borrowed. -/
def borrowExclusively? (cs : Cells α) (h : CellRef) : Option (Cells α) :=
  match cs.cell? h with
  | some ⟨x, handles, .free⟩ => some (cs.put h (some ⟨x, handles, .exclusive⟩))
  | _ => none

/-- Change the contents through an exclusive borrow. -/
def writeBorrowed (cs : Cells α) (h : CellRef) (change : α → α) : Cells α :=
  match cs.cell? h with
  | some ⟨x, handles, .exclusive⟩ => cs.put h (some ⟨change x, handles, .exclusive⟩)
  | _ => cs

/-- End one borrow of the cell. -/
def release (cs : Cells α) (h : CellRef) : Cells α :=
  match cs.cell? h with
  | some ⟨x, handles, .shared (n + 1)⟩ => cs.put h (some ⟨x, handles, .shared n⟩)
  | some c => cs.put h (some { c with borrow := .free })
  | none => cs

/-- Take the contents out through the last handle; with other handles left nothing happens, and
their number with this one is told. -/
def take (cs : Cells α) (h : CellRef) : Cells α × Except Nat α :=
  match cs.cell? h with
  | some c => if c.handles ≤ 1 then (cs.put h none, .ok c.contents) else (cs, .error c.handles)
  | none => (cs, .error 0)

theorem cell?_put {cs : Cells α} {h : CellRef} {c : Cell α} (hc : cs.cell? h = some c)
    (x : Option (Cell α)) (k : CellRef) :
    (cs.put h x).cell? k = if h = k then x else cs.cell? k := by
  cases h with
  | mk i =>
    cases k with
    | mk j =>
      have hi : i < cs.cells.size := by
        rcases Nat.lt_or_ge i cs.cells.size with hi | hi
        · exact hi
        · rw [cell?, Array.getElem?_eq_none hi] at hc
          cases hc
      simp only [cell?, put, Array.getElem?_setIfInBounds, hi, if_true, CellRef.mk.injEq]
      split <;> rfl

theorem cell?_new (cs : Cells α) (x : α) (k : CellRef) :
    (cs.new x).1.cell? k = if k = (cs.new x).2 then some ⟨x, 1, .free⟩ else cs.cell? k := by
  cases k with
  | mk j =>
    simp only [cell?, new, Array.getElem?_push, CellRef.mk.injEq]
    split <;> rfl

theorem cell?_new_snd (cs : Cells α) (x : α) : cs.cell? (cs.new x).2 = none := by
  simp [cell?, new]

end Cells

end ScopeChain
