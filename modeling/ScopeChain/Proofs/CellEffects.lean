import ScopeChain.Proofs.SharedHandles

/-!
What an action on shared cells does.  Whatever an action looks at, it does one of seven deeds, and
each of them keeps the cells sound: a cell counts the handles to it, a borrow runs through a handle
that is there, and the borrow of a cell counts the borrows of it that run.
-/

namespace ScopeChain

/-- What an action does to cells, handles and borrows. -/
inductive Deed (α : Type) where
  | idle
  /-- A cell is made, and its first handle. -/
  | made (h : Handle) (x : α)
  /-- The handle `g` is made from the handle `h`. -/
  | shared (h g : Handle)
  | gaveUp (h : Handle)
  | wrote (h : Handle) (change : α → α)
  | lent (l : Loan)
  | released (l : Loan)

/-- What an action with this result has done. -/
def CellAction.deed {α : Type} : CellAction α → CellResult α → Deed α
  | .new x, .handle h => .made h x
  | .share h, .handle g => .shared h g
  | .drop h, .done => .gaveUp h
  | .take h, .taken _ => .gaveUp h
  | .write h change, .done => .wrote h change
  | .writeLoan h change, .done => .wrote h change
  | .borrow l, .done => .lent l
  | .release l, .done => .released l
  | _, _ => .idle

namespace SharedCells

variable {α : Type} {s after : SharedCells α} {h : Handle} {k : CellRef} {c : Cell α} {d : Deed α}

/-- The cells after one deed. -/
inductive Effect (s : SharedCells α) : Deed α → SharedCells α → Prop where
  | idle : Effect s .idle s
  | made (x : α) : Effect s (.made s.next x) (s.give (s.cells.new x).1 (s.cells.new x).2)
  | shared {h : Handle} {k : CellRef} {c : Cell α} (hk : s.cell? h = some k)
      (hc : s.cells.cell? k = some c) :
      Effect s (.shared h s.next)
        (s.give (s.cells.put k (some { c with handles := c.handles + 1 })) k)
  | gaveUp {h : Handle} {k : CellRef} {c : Cell α} (hk : s.cell? h = some k)
      (hc : s.cells.cell? k = some c) (hlent : s.isLent h = false) :
      Effect s (.gaveUp h) (s.giveUp (s.cells.put k (Cells.lessOne c)) h)
  | wrote {h : Handle} {k : CellRef} {c : Cell α} (change : α → α) (hk : s.cell? h = some k)
      (hc : s.cells.cell? k = some c) :
      Effect s (.wrote h change)
        { s with cells := s.cells.put k (some { c with contents := change c.contents }) }
  | lent {l : Loan} {k : CellRef} {c : Cell α} {b : Borrow} (hk : s.cell? l.handle = some k)
      (hc : s.cells.cell? k = some c) (hb : c.borrow.lend? l.exclusive = some b) :
      Effect s (.lent l)
        { s with cells := s.cells.put k (some { c with borrow := b }), loans := l :: s.loans }
  | released {l : Loan} {k : CellRef} {c : Cell α} (hl : l ∈ s.loans)
      (hk : s.cell? l.handle = some k) (hc : s.cells.cell? k = some c) :
      Effect s (.released l)
        { s with cells := s.cells.put k (some { c with borrow := c.borrow.giveBack }),
                 loans := s.loans.erase l }

/-- The number of exclusive borrows of a cell that run, or that of the others. -/
def lendings (s : SharedCells α) (k : CellRef) (exclusive : Bool) : Nat :=
  s.loans.countP fun l => s.cell? l.handle = some k ∧ l.exclusive = exclusive

/-- Handles, borrows and cells agree. -/
structure Sound (s : SharedCells α) : Prop where
  count_eq : ∀ k, s.cells.count k = s.holders k
  isLive_of_loan : ∀ l ∈ s.loans, s.isLive l.handle = true
  borrow_counts : ∀ k c, s.cells.cell? k = some c →
    c.borrow.Counts (s.lendings k false) (s.lendings k true)

theorem sound_empty : (empty : SharedCells α).Sound where
  count_eq _ := rfl
  isLive_of_loan _ hl := absurd hl List.not_mem_nil
  borrow_counts _ _ hc := by cases hc

theorem Sound.exists_cell (hs : s.Sound) (hk : s.cell? h = some k) :
    ∃ c, s.cells.cell? k = some c := by
  have hcount := holders_ne_zero hk
  rw [← hs.count_eq, Cells.count_eq] at hcount
  cases hc : s.cells.cell? k with
  | none => exact absurd (by rw [hc]; rfl) hcount
  | some c => exact ⟨c, rfl⟩

theorem Sound.handles_eq (hs : s.Sound) (hc : s.cells.cell? k = some c) :
    c.handles = s.holders k := by
  rw [← hs.count_eq, Cells.count_eq, hc]
  rfl

theorem not_lent_of_loan {l : Loan} (hlent : s.isLent h = false) (hl : l ∈ s.loans) :
    h ≠ l.handle := by
  rintro rfl
  rw [isLent, List.any_eq_false] at hlent
  exact hlent l hl (by simp)

/-! ### What keeps the cells sound -/

theorem lendings_congr (hloans : after.loans = s.loans)
    (hcell : ∀ l ∈ s.loans, after.cell? l.handle = s.cell? l.handle) (k : CellRef)
    (exclusive : Bool) : after.lendings k exclusive = s.lendings k exclusive := by
  rw [lendings, lendings, hloans]
  refine List.countP_congr fun l hl => ?_
  rw [hcell l hl]

theorem lendings_eq_zero_iff {exclusive : Bool} :
    s.lendings k exclusive = 0 ↔
      ∀ l ∈ s.loans, s.cell? l.handle = some k → l.exclusive ≠ exclusive := by
  simp [lendings, List.countP_eq_zero]

theorem Sound.lendings_of_absent (hs : s.Sound) (hc : s.cells.cell? k = none) (exclusive : Bool) :
    s.lendings k exclusive = 0 := by
  rw [lendings_eq_zero_iff]
  intro l _ hk
  obtain ⟨c, hc'⟩ := hs.exists_cell hk
  rw [hc] at hc'
  cases hc'

theorem Sound.cell?_give_of_loan (hs : s.Sound) (cells : Cells α) (k : CellRef) :
    ∀ l ∈ s.loans, (s.give cells k).cell? l.handle = s.cell? l.handle := by
  intro l hl
  obtain ⟨m, hm⟩ := isLive_iff.mp (hs.isLive_of_loan l hl)
  rw [cell?_give, if_neg]
  rintro hnext
  rw [hnext, cell?_next] at hm
  cases hm

theorem cell?_giveUp_of_loan (hlent : s.isLent h = false) (cells : Cells α) :
    ∀ l ∈ s.loans, (s.giveUp cells h).cell? l.handle = s.cell? l.handle := by
  intro l hl
  rw [cell?_giveUp, if_neg (not_lent_of_loan hlent hl)]

theorem Sound.eq_exclusive_iff (hs : s.Sound) (hc : s.cells.cell? k = some c) :
    c.borrow = .exclusive ↔
      ∃ l ∈ s.loans, s.cell? l.handle = some k ∧ l.exclusive = true := by
  rw [(hs.borrow_counts k c hc).eq_exclusive_iff, Ne, lendings_eq_zero_iff]
  simp

theorem Sound.eq_free_iff (hs : s.Sound) (hc : s.cells.cell? k = some c) :
    c.borrow = .free ↔ ∀ l ∈ s.loans, s.cell? l.handle ≠ some k := by
  rw [(hs.borrow_counts k c hc).eq_free_iff, lendings_eq_zero_iff, lendings_eq_zero_iff]
  constructor
  · rintro ⟨hreaders, hwriters⟩ l hl hk
    cases hexclusive : l.exclusive with
    | false => exact hreaders l hl hk hexclusive
    | true => exact hwriters l hl hk hexclusive
  · intro hnone
    exact ⟨fun l hl hk => absurd hk (hnone l hl), fun l hl hk => absurd hk (hnone l hl)⟩

/-- A cell can be lent when no borrow of it runs, and for reading when no exclusive one does. -/
theorem Sound.can_lend_iff (hs : s.Sound) (hc : s.cells.cell? k = some c) (exclusive : Bool) :
    (c.borrow = .free ∨ exclusive = false ∧ c.borrow ≠ .exclusive) ↔
      ¬ ∃ l ∈ s.loans, s.cell? l.handle = some k ∧ (exclusive = true ∨ l.exclusive = true) := by
  rw [hs.eq_free_iff hc, Ne, hs.eq_exclusive_iff hc]
  constructor
  · rintro (hfree | ⟨rfl, hreaders⟩) ⟨l, hl, hk, hkind⟩
    · exact hfree l hl hk
    · exact hreaders ⟨l, hl, hk, hkind.resolve_left Bool.false_ne_true⟩
  · intro hnone
    cases exclusive with
    | true => exact .inl fun l hl hk => hnone ⟨l, hl, hk, .inl rfl⟩
    | false => exact .inr ⟨rfl, fun ⟨l, hl, hk, hexclusive⟩ => hnone ⟨l, hl, hk, .inr hexclusive⟩⟩

/-- Where the borrows that run stay, with their handles, it is enough that every cell keeps its
borrow and that a new one has none. -/
theorem Sound.of_same_loans (hs : s.Sound) (hloans : after.loans = s.loans)
    (hcell : ∀ l ∈ s.loans, after.cell? l.handle = s.cell? l.handle)
    (hcount : ∀ k, after.cells.count k = after.holders k)
    (hborrow : ∀ k found, after.cells.cell? k = some found →
      (∃ c, s.cells.cell? k = some c ∧ found.borrow = c.borrow) ∨
        s.cells.cell? k = none ∧ found.borrow = .free) : after.Sound where
  count_eq := hcount
  isLive_of_loan l hl := by
    rw [hloans] at hl
    rw [isLive, hcell l hl]
    exact hs.isLive_of_loan l hl
  borrow_counts k found hfound := by
    rw [lendings_congr hloans hcell, lendings_congr hloans hcell]
    rcases hborrow k found hfound with ⟨c, hc, hsame⟩ | ⟨habsent, hfree⟩
    · rw [hsame]
      exact hs.borrow_counts k c hc
    · rw [hfree]
      exact ⟨hs.lendings_of_absent habsent false, hs.lendings_of_absent habsent true⟩

theorem Sound.made (hs : s.Sound) (x : α) : (s.give (s.cells.new x).1 (s.cells.new x).2).Sound := by
  refine hs.of_same_loans rfl (hs.cell?_give_of_loan _ _) (fun l => ?_) fun l found hfound => ?_
  · change (s.cells.new x).1.count l = _
    rw [holders_give, ← hs.count_eq, Cells.count_eq, Cells.count_eq, Cells.cell?_new]
    split
    · rename_i hl
      rw [hl, Cells.cell?_new_snd, if_pos rfl]
      rfl
    · rename_i hl
      rw [if_neg fun h => hl h.symm]
      rfl
  · change (s.cells.new x).1.cell? l = some found at hfound
    rw [Cells.cell?_new] at hfound
    split at hfound
    · rename_i hl
      obtain rfl := Option.some.inj hfound
      exact .inr ⟨hl ▸ Cells.cell?_new_snd s.cells x, rfl⟩
    · exact .inl ⟨found, hfound, rfl⟩

/-- The borrows of the cells when a cell has made way for another one with its borrow, or for none. -/
theorem borrow_of_put (hc : s.cells.cell? k = some c) {x : Option (Cell α)}
    (hx : ∀ c', x = some c' → c'.borrow = c.borrow) (l : CellRef) (found : Cell α)
    (hfound : (s.cells.put k x).cell? l = some found) :
    (∃ c, s.cells.cell? l = some c ∧ found.borrow = c.borrow) ∨
      s.cells.cell? l = none ∧ found.borrow = .free := by
  rw [Cells.cell?_put hc] at hfound
  split at hfound
  · rename_i hl
    exact .inl ⟨c, hl ▸ hc, hx found hfound⟩
  · exact .inl ⟨found, hfound, rfl⟩

theorem Sound.shared (hs : s.Sound) (hc : s.cells.cell? k = some c) :
    (s.give (s.cells.put k (some { c with handles := c.handles + 1 })) k).Sound := by
  refine hs.of_same_loans rfl (hs.cell?_give_of_loan _ _) (fun l => ?_) (borrow_of_put hc ?_)
  · change (s.cells.put k _).count l = _
    rw [holders_give, ← hs.count_eq, Cells.count_put hc]
    split
    · rename_i hl
      rw [← hl, Cells.count_eq, hc]
      rfl
    · rfl
  · intro c' hc'
    obtain rfl := Option.some.inj hc'
    rfl

theorem Sound.gaveUp (hs : s.Sound) (hk : s.cell? h = some k) (hc : s.cells.cell? k = some c)
    (hlent : s.isLent h = false) : (s.giveUp (s.cells.put k (Cells.lessOne c)) h).Sound := by
  refine hs.of_same_loans rfl (cell?_giveUp_of_loan hlent _) (fun l => ?_) (borrow_of_put hc ?_)
  · change (s.cells.put k _).count l = _
    rw [holders_giveUp hk, ← hs.count_eq, Cells.count_put hc, Cells.lessOne]
    split
    · rename_i hl
      rw [← hl, Cells.count_eq, hc]
      split
      · rename_i hlast
        exact (Nat.sub_eq_zero_of_le hlast).symm
      · rfl
    · rfl
  · intro c' hc'
    rw [Cells.lessOne] at hc'
    split at hc'
    · cases hc'
    · obtain rfl := Option.some.inj hc'
      rfl

theorem Sound.wrote (hs : s.Sound) (hc : s.cells.cell? k = some c) (x : α) :
    Sound { s with cells := s.cells.put k (some { c with contents := x }) } := by
  refine hs.of_same_loans rfl (fun l _ => rfl) (fun l => ?_) (borrow_of_put hc ?_)
  · change (s.cells.put k _).count l = s.holders l
    rw [← hs.count_eq, Cells.count_put hc]
    split
    · rename_i hl
      rw [← hl, Cells.count_eq, hc]
      rfl
    · rfl
  · intro c' hc'
    obtain rfl := Option.some.inj hc'
    rfl

theorem lendings_cons (s : SharedCells α) (l : Loan) (loans : List Loan) (k : CellRef)
    (exclusive : Bool) :
    lendings { s with loans := l :: loans } k exclusive = lendings { s with loans } k exclusive +
      if s.cell? l.handle = some k ∧ l.exclusive = exclusive then 1 else 0 := by
  rw [lendings, lendings, List.countP_cons]
  simp only [decide_eq_true_eq]
  rfl

theorem lendings_erase {l : Loan} (hl : l ∈ s.loans) (k : CellRef) (exclusive : Bool) :
    s.lendings k exclusive = lendings { s with loans := s.loans.erase l } k exclusive +
      if s.cell? l.handle = some k ∧ l.exclusive = exclusive then 1 else 0 := by
  rw [← lendings_cons]
  exact (List.perm_cons_erase hl).countP_eq _

/-- A borrow of one cell begins or ends: the other cells have as many borrows as before, and this one
has a borrow that counts its own. -/
theorem Sound.borrowed (hs : s.Sound) (hc : s.cells.cell? k = some c) {b : Borrow}
    {loans : List Loan} (hlive : ∀ l ∈ loans, s.isLive l.handle = true)
    (hother : ∀ l, k ≠ l → ∀ exclusive,
      lendings { s with loans } l exclusive = s.lendings l exclusive)
    (hborrow : b.Counts (lendings { s with loans } k false) (lendings { s with loans } k true)) :
    Sound { s with cells := s.cells.put k (some { c with borrow := b }), loans } where
  count_eq l := by
    change (s.cells.put k _).count l = s.holders l
    rw [← hs.count_eq, Cells.count_put hc]
    split
    · rename_i hl
      rw [← hl, Cells.count_eq, hc]
      rfl
    · rfl
  isLive_of_loan := hlive
  borrow_counts l found hfound := by
    change (s.cells.put k _).cell? l = some found at hfound
    change found.borrow.Counts (lendings { s with loans } l false) (lendings { s with loans } l true)
    rw [Cells.cell?_put hc] at hfound
    split at hfound
    · rename_i hl
      obtain rfl := Option.some.inj hfound
      rw [← hl]
      exact hborrow
    · rename_i hl
      rw [hother l hl, hother l hl]
      exact hs.borrow_counts l found hfound

theorem Sound.lent {l : Loan} {b : Borrow} (hs : s.Sound) (hk : s.cell? l.handle = some k)
    (hc : s.cells.cell? k = some c) (hb : c.borrow.lend? l.exclusive = some b) :
    Sound { s with cells := s.cells.put k (some { c with borrow := b }), loans := l :: s.loans } := by
  have hbefore := hs.borrow_counts k c hc
  refine hs.borrowed hc ?_ (fun m hm exclusive => ?_) ?_
  · intro m hm
    rcases List.mem_cons.mp hm with rfl | hm
    · exact isLive_iff.mpr ⟨k, hk⟩
    · exact hs.isLive_of_loan m hm
  · rw [lendings_cons, if_neg]
    · rfl
    · rintro ⟨hm', -⟩
      exact hm (Option.some.inj (hk.symm.trans hm'))
  · rw [lendings_cons, lendings_cons]
    cases hexclusive : l.exclusive with
    | false =>
        rw [hexclusive] at hb
        rw [if_pos ⟨hk, rfl⟩, if_neg (by simp)]
        exact hbefore.lend_shared hb
    | true =>
        rw [hexclusive] at hb
        rw [if_neg (by simp), if_pos ⟨hk, rfl⟩]
        exact hbefore.lend_exclusive hb

theorem Sound.released {l : Loan} (hs : s.Sound) (hl : l ∈ s.loans) (hk : s.cell? l.handle = some k)
    (hc : s.cells.cell? k = some c) :
    Sound { s with cells := s.cells.put k (some { c with borrow := c.borrow.giveBack }),
                   loans := s.loans.erase l } := by
  have hbefore := hs.borrow_counts k c hc
  refine hs.borrowed hc (fun m hm => hs.isLive_of_loan m (List.mem_of_mem_erase hm))
    (fun m hm exclusive => ?_) ?_
  · rw [lendings_erase hl m, if_neg]
    · rfl
    · rintro ⟨hm', -⟩
      exact hm (Option.some.inj (hk.symm.trans hm'))
  · rw [lendings_erase hl, lendings_erase hl k true] at hbefore
    cases hexclusive : l.exclusive with
    | false =>
        rw [if_pos ⟨hk, hexclusive⟩, if_neg (by simp [hexclusive])] at hbefore
        exact hbefore.giveBack_shared
    | true =>
        rw [if_neg (by simp [hexclusive]), if_pos ⟨hk, hexclusive⟩] at hbefore
        exact hbefore.giveBack_exclusive

theorem Sound.effect (hs : s.Sound) (heffect : Effect s d after) : after.Sound := by
  cases heffect with
  | idle => exact hs
  | made x => exact hs.made x
  | shared hk hc => exact hs.shared hc
  | gaveUp hk hc hlent => exact hs.gaveUp hk hc hlent
  | wrote change hk hc => exact hs.wrote hc _
  | lent hk hc hb => exact hs.lent hk hc hb
  | released hl hk hc => exact hs.released hl hk hc

/-! ### The effect of an action -/

theorem performAt_eq (hk : s.cell? h = some k)
    (operation : SharedCells α → CellRef → SharedCells α × CellResult α) :
    s.performAt h operation = operation s k := by
  rw [performAt, hk]

theorem performAt_of_gone (hk : s.cell? h = none)
    (operation : SharedCells α → CellRef → SharedCells α × CellResult α) :
    s.performAt h operation = (s, .absent) := by
  rw [performAt, hk]

/-- The effect of an operation on the cell of a handle, given its effect when the handle is there. -/
theorem Sound.effect_performAt (hs : s.Sound) (h : Handle)
    {operation : SharedCells α → CellRef → SharedCells α × CellResult α}
    {deed : CellResult α → Deed α} (habsent : deed .absent = .idle)
    (hoperation : ∀ k c, s.cell? h = some k → s.cells.cell? k = some c →
      Effect s (deed (operation s k).2) (operation s k).1) :
    Effect s (deed (s.performAt h operation).2) (s.performAt h operation).1 := by
  cases hk : s.cell? h with
  | none =>
      rw [performAt_of_gone hk, habsent]
      exact .idle
  | some k =>
      obtain ⟨c, hc⟩ := hs.exists_cell hk
      rw [performAt_eq hk]
      exact hoperation k c hk hc

theorem Sound.effect_performLoan (hs : s.Sound) (l : Loan)
    {operation : SharedCells α → CellRef → SharedCells α × CellResult α}
    {deed : CellResult α → Deed α} (habsent : deed .absent = .idle)
    (hoperation : ∀ k c, l ∈ s.loans → s.cell? l.handle = some k → s.cells.cell? k = some c →
      Effect s (deed (operation s k).2) (operation s k).1) :
    Effect s (deed (s.performLoan l operation).2) (s.performLoan l operation).1 := by
  rw [performLoan]
  split
  · rename_i hl
    exact hs.effect_performAt l.handle habsent fun k c => hoperation k c hl
  · rw [habsent]
    exact .idle

/-- Every action has one of the effects, and its result tells which. -/
theorem Sound.effect_perform (hs : s.Sound) (a : CellAction α) :
    Effect s (a.deed (s.perform a).2) (s.perform a).1 := by
  cases a with
  | new x => exact .made x
  | share h =>
      refine hs.effect_performAt h rfl fun k c hk hc => ?_
      rw [Cells.share_eq hc]
      exact .shared hk hc
  | drop h =>
      refine hs.effect_performAt h rfl fun k c hk hc => ?_
      cases hlent : s.isLent h with
      | true => exact .idle
      | false =>
          rw [Cells.drop_eq hc]
          exact .gaveUp hk hc hlent
  | take h =>
      refine hs.effect_performAt h rfl fun k c hk hc => ?_
      cases hlent : s.isLent h with
      | true => exact .idle
      | false =>
          rw [Cells.take_eq hc]
          by_cases hlast : c.handles ≤ 1
          · rw [if_pos hlast]
            exact .gaveUp hk hc hlent
          · rw [if_neg hlast]
            exact .idle
  | count h => exact hs.effect_performAt h rfl fun k c hk hc => .idle
  | compare h other =>
      refine hs.effect_performAt h rfl fun k c hk hc => ?_
      exact hs.effect_performAt other rfl fun l c' hl hc' => .idle
  | read h =>
      refine hs.effect_performAt h rfl fun k c hk hc => ?_
      rw [Cells.read?_eq hc]
      split
      · exact .idle
      · exact .idle
  | write h change =>
      refine hs.effect_performAt h rfl fun k c hk hc => ?_
      rw [Cells.write?_eq hc]
      by_cases hfree : c.borrow = .free
      · rw [if_pos hfree]
        exact .wrote change hk hc
      · rw [if_neg hfree]
        exact .idle
  | borrow l =>
      refine hs.effect_performAt l.handle rfl fun k c hk hc => ?_
      rw [Cells.lend?_eq hc]
      cases hb : c.borrow.lend? l.exclusive with
      | none => exact .idle
      | some b => exact .lent hk hc hb
  | readLoan l =>
      refine hs.effect_performLoan l rfl fun k c hl hk hc => ?_
      rw [hc]
      exact .idle
  | writeLoan h change =>
      refine hs.effect_performLoan ⟨h, true⟩ rfl fun k c hl hk hc => ?_
      rw [Cells.writeBorrowed_eq hc ((hs.eq_exclusive_iff hc).mpr ⟨_, hl, hk, rfl⟩)]
      exact .wrote change hk hc
  | release l =>
      refine hs.effect_performLoan l rfl fun k c hl hk hc => ?_
      rw [Cells.release_eq hc]
      exact .released hl hk hc

end SharedCells

end ScopeChain
