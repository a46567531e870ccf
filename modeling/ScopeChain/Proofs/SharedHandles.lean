import Mathlib.Data.Fintype.Fin
import Mathlib.Data.Set.Card
import ScopeChain.Cell.Shared

/-!
What shared cells count.  The borrow of a cell counts its readers and writers, each operation on a
cell puts another cell in its place or none, and the handles to a cell are as many as those to it
among all that were made.
-/

namespace ScopeChain

namespace Borrow

/-- The borrow of a cell after one more borrow, if the others allow that. -/
def lend? (exclusive : Bool) : Borrow → Option Borrow
  | .free => some (if exclusive then .exclusive else .shared 0)
  | .shared n => if exclusive then none else some (.shared (n + 1))
  | .exclusive => none

/-- The borrow of a cell after the end of one. -/
def giveBack : Borrow → Borrow
  | .shared (n + 1) => .shared n
  | .shared 0 | .free | .exclusive => .free

/-- The borrow of a cell that so many readers and so many writers have borrowed. -/
def Counts : Borrow → Nat → Nat → Prop
  | .free, readers, writers => readers = 0 ∧ writers = 0
  | .shared n, readers, writers => readers = n + 1 ∧ writers = 0
  | .exclusive, readers, writers => readers = 0 ∧ writers = 1

variable {b after : Borrow} {readers writers : Nat}

theorem Counts.lend_shared (h : b.Counts readers writers) (hb : b.lend? false = some after) :
    after.Counts (readers + 1) writers := by
  cases b with
  | free =>
      obtain rfl := Option.some.inj hb
      exact ⟨by rw [h.1], h.2⟩
  | shared n =>
      obtain rfl := Option.some.inj hb
      exact ⟨by rw [h.1], h.2⟩
  | exclusive => cases hb

theorem Counts.lend_exclusive (h : b.Counts readers writers) (hb : b.lend? true = some after) :
    after.Counts readers (writers + 1) := by
  cases b with
  | free =>
      obtain rfl := Option.some.inj hb
      exact ⟨h.1, by rw [h.2]⟩
  | shared n => cases hb
  | exclusive => cases hb

theorem Counts.giveBack_shared (h : b.Counts (readers + 1) writers) :
    b.giveBack.Counts readers writers := by
  cases b with
  | free => exact absurd h.1 (Nat.succ_ne_zero _)
  | shared n =>
      have hreaders : readers = n := Nat.succ.inj h.1
      cases n with
      | zero => exact ⟨hreaders, h.2⟩
      | succ n => exact ⟨hreaders, h.2⟩
  | exclusive => exact absurd h.1 (Nat.succ_ne_zero _)

theorem Counts.giveBack_exclusive (h : b.Counts readers (writers + 1)) :
    b.giveBack.Counts readers writers := by
  cases b with
  | free => exact absurd h.2 (Nat.succ_ne_zero _)
  | shared n => exact absurd h.2 (Nat.succ_ne_zero _)
  | exclusive => exact ⟨h.1, Nat.succ.inj h.2⟩

theorem Counts.eq_exclusive_iff (h : b.Counts readers writers) : b = .exclusive ↔ writers ≠ 0 := by
  cases b with
  | free => simp [h.2]
  | shared n => simp [h.2]
  | exclusive => simp [h.2]

theorem Counts.eq_free_iff (h : b.Counts readers writers) :
    b = .free ↔ readers = 0 ∧ writers = 0 := by
  cases b with
  | free => simp [h.1, h.2]
  | shared n => simp [h.1]
  | exclusive => simp [h.2]

end Borrow

namespace Cells

variable {α : Type} {cs : Cells α} {k : CellRef} {c : Cell α}

theorem count_eq (cs : Cells α) (k : CellRef) :
    cs.count k = ((cs.cell? k).map Cell.handles).getD 0 := by
  rw [count]
  cases cs.cell? k <;> rfl

theorem count_put (hc : cs.cell? k = some c) (x : Option (Cell α)) (l : CellRef) :
    (cs.put k x).count l = if k = l then (x.map Cell.handles).getD 0 else cs.count l := by
  rw [count_eq, count_eq, cell?_put hc]
  split <;> rfl

/-- The cell when one handle less is left of its handles. -/
def lessOne (c : Cell α) : Option (Cell α) :=
  if c.handles ≤ 1 then none else some { c with handles := c.handles - 1 }

theorem share_eq (hc : cs.cell? k = some c) :
    cs.share k = cs.put k (some { c with handles := c.handles + 1 }) := by
  rw [share, hc]

theorem drop_eq (hc : cs.cell? k = some c) : cs.drop k = cs.put k (lessOne c) := by
  rw [drop, hc, lessOne, apply_ite (cs.put k)]

theorem take_eq (hc : cs.cell? k = some c) :
    cs.take k = if c.handles ≤ 1 then (cs.put k (lessOne c), .ok c.contents)
      else (cs, .error c.handles) := by
  rw [take, hc, lessOne]
  by_cases hlast : c.handles ≤ 1
  · rw [if_pos hlast, if_pos hlast]
    exact if_pos hlast
  · rw [if_neg hlast]
    exact if_neg hlast

theorem read?_eq (hc : cs.cell? k = some c) :
    cs.read? k = if c.borrow = .exclusive then none else some c.contents := by
  rw [read?, hc]
  rcases c with ⟨x, n, b⟩
  cases b <;> rfl

theorem write?_eq (hc : cs.cell? k = some c) (change : α → α) :
    cs.write? k change = if c.borrow = .free then
      some (cs.put k (some { c with contents := change c.contents })) else none := by
  rw [write?, hc]
  rcases c with ⟨x, n, b⟩
  cases b <;> rfl

theorem lend?_eq (hc : cs.cell? k = some c) (exclusive : Bool) :
    (if exclusive then cs.borrowExclusively? k else cs.borrow? k) =
      (c.borrow.lend? exclusive).map fun b => cs.put k (some { c with borrow := b }) := by
  rw [borrowExclusively?, borrow?, hc]
  rcases c with ⟨x, n, b⟩
  cases exclusive <;> cases b <;> rfl

theorem writeBorrowed_eq (hc : cs.cell? k = some c) (hb : c.borrow = .exclusive) (change : α → α) :
    cs.writeBorrowed k change = cs.put k (some { c with contents := change c.contents }) := by
  rw [writeBorrowed, hc]
  rcases c with ⟨x, n, b⟩
  obtain rfl : b = .exclusive := hb
  rfl

theorem release_eq (hc : cs.cell? k = some c) :
    cs.release k = cs.put k (some { c with borrow := c.borrow.giveBack }) := by
  rw [release, hc]
  rcases c with ⟨x, n, b⟩
  cases b with
  | shared m => cases m <;> rfl
  | free => rfl
  | exclusive => rfl

theorem contents_put (hc : cs.cell? k = some c) {c' : Cell α} (hsame : c'.contents = c.contents)
    (l : CellRef) :
    ((cs.put k (some c')).cell? l).map Cell.contents = (cs.cell? l).map Cell.contents := by
  rw [cell?_put hc]
  split
  · rename_i hl
    rw [← hl, hc, Option.map_some, Option.map_some, hsame]
  · rfl

end Cells

namespace SharedCells

variable {α : Type} {s : SharedCells α} {h : Handle} {k : CellRef}

/-! ### Handles -/

theorem cell?_give (s : SharedCells α) (cells : Cells α) (k : CellRef) (g : Handle) :
    (s.give cells k).cell? g = if g = s.next then some k else s.cell? g := by
  cases g with
  | mk j =>
    simp only [cell?, give, next, Array.getElem?_push, Handle.mk.injEq]
    split <;> rfl

theorem cell?_next (s : SharedCells α) : s.cell? s.next = none := by
  simp [cell?, next]

theorem cell?_giveUp (s : SharedCells α) (cells : Cells α) (h g : Handle) :
    (s.giveUp cells h).cell? g = if h = g then none else s.cell? g := by
  cases h with
  | mk i =>
    cases g with
    | mk j =>
      simp only [cell?, giveUp, Array.getElem?_setIfInBounds, Handle.mk.injEq]
      split
      · split <;> rfl
      · rfl

theorem isLive_give (s : SharedCells α) (cells : Cells α) (k : CellRef) (g : Handle) :
    (s.give cells k).isLive g = (decide (g = s.next) || s.isLive g) := by
  rw [isLive, isLive, cell?_give]
  by_cases hnext : g = s.next
  · simp [hnext]
  · simp [hnext]

theorem isLive_giveUp (s : SharedCells α) (cells : Cells α) (h g : Handle) :
    (s.giveUp cells h).isLive g = (decide (g ≠ h) && s.isLive g) := by
  rw [isLive, isLive, cell?_giveUp]
  by_cases hgh : h = g
  · simp [hgh]
  · simp [hgh, Ne.symm hgh]

theorem size_give (s : SharedCells α) (cells : Cells α) (k : CellRef) :
    (s.give cells k).handles.size = s.handles.size + 1 :=
  Array.size_push _

theorem size_giveUp (s : SharedCells α) (cells : Cells α) (h : Handle) :
    (s.giveUp cells h).handles.size = s.handles.size :=
  Array.size_setIfInBounds

theorem cell?_eq_some_iff : s.cell? h = some k ↔ s.handles[h.index]? = some (some k) := by
  rw [cell?, Option.join_eq_some_iff]

theorem isLive_iff : s.isLive h = true ↔ ∃ k, s.cell? h = some k := by
  rw [isLive, Option.isSome_iff_exists]

/-- The number of handles to a cell. -/
def holders (s : SharedCells α) (k : CellRef) : Nat :=
  s.handles.count (some k)

theorem holders_ne_zero (hk : s.cell? h = some k) : s.holders k ≠ 0 := by
  have hmem : some k ∈ s.handles := Array.mem_of_getElem? (cell?_eq_some_iff.mp hk)
  exact Nat.ne_of_gt (Array.count_pos_iff.mpr hmem)

theorem holders_give (s : SharedCells α) (cells : Cells α) (k l : CellRef) :
    (s.give cells k).holders l = s.holders l + if k = l then 1 else 0 := by
  simp only [holders, give, Array.count_push, beq_iff_eq, Option.some.injEq]

theorem holders_giveUp (hk : s.cell? h = some k) (cells : Cells α) (l : CellRef) :
    (s.giveUp cells h).holders l = s.holders l - if k = l then 1 else 0 := by
  obtain ⟨hlt, hget⟩ := Array.getElem?_eq_some_iff.mp (cell?_eq_some_iff.mp hk)
  rw [holders, holders, giveUp, Array.setIfInBounds_def, dif_pos hlt, Array.count_set, hget]
  simp

theorem ncard_handles (s : SharedCells α) (k : CellRef) :
    {g | s.cell? g = some k}.ncard = s.holders k := by
  have himage : {g | s.cell? g = some k} = (fun i : Fin s.handles.toList.length => Handle.mk i) ''
      {i | s.handles.toList.get i = some k} := by
    ext g
    simp only [Set.mem_ofPred_eq, Set.mem_image, cell?_eq_some_iff, ← Array.getElem?_toList,
      List.getElem?_eq_some_iff]
    constructor
    · rintro ⟨hlt, hget⟩
      exact ⟨⟨g.index, hlt⟩, hget, rfl⟩
    · rintro ⟨i, hget, rfl⟩
      exact ⟨i.isLt, hget⟩
  have hinjective : Function.Injective fun i : Fin s.handles.toList.length => Handle.mk i :=
    fun i j hij => Fin.ext (Handle.mk.inj hij)
  have hcount := Fin.card_filter_univ_eq_vector_get_eq_count (some k)
    (⟨s.handles.toList, rfl⟩ : List.Vector (Option CellRef) s.handles.toList.length)
  have htests : (instBEqOfDecidableEq : BEq (Option CellRef)) = Option.instBEq :=
    lawful_beq_subsingleton _ _
  rw [htests, ← Set.ncard_coe_finset, Finset.coe_filter_univ] at hcount
  rw [himage, Set.ncard_image_of_injective _ hinjective, holders, ← Array.count_toList]
  exact hcount

theorem finite_handles (hk : s.cell? h = some k) : {g | s.cell? g = some k}.Finite := by
  refine Set.finite_of_ncard_ne_zero ?_
  rw [ncard_handles]
  exact holders_ne_zero hk

end SharedCells

end ScopeChain
