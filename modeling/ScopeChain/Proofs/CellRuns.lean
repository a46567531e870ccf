import ScopeChain.Proofs.SharedContents

/-!
Runs on shared cells.  After every run the answers through a handle follow from what was done before:
how many handles there are to the cell, which of them are to the same cell, what the cell holds, and
whether its contents can be taken out.
-/

namespace ScopeChain

namespace SharedCells

variable {α : Type} {s : SharedCells α} {h : Handle} {k : CellRef} {c : Cell α}

/-! ### Answers through a handle -/

theorem perform_count (hk : s.cell? h = some k) :
    s.perform (.count h) = (s, .number (s.cells.count k)) := by
  rw [perform, performAt_eq hk]

theorem perform_compare (hk : s.cell? h = some k) {g : Handle} {l : CellRef}
    (hl : s.cell? g = some l) : s.perform (.compare h g) = (s, .flag (k == l)) := by
  rw [perform, performAt_eq hk, performAt_eq hl]

theorem perform_read (hk : s.cell? h = some k) (hc : s.cells.cell? k = some c) :
    s.perform (.read h) =
      (s, if c.borrow = .exclusive then .refused else .contents c.contents) := by
  rw [perform, performAt_eq hk, Cells.read?_eq hc]
  by_cases hb : c.borrow = .exclusive
  · rw [if_pos hb, if_pos hb]
  · rw [if_neg hb, if_neg hb]

theorem perform_readLoan {l : Loan} (hl : l ∈ s.loans) (hk : s.cell? l.handle = some k)
    (hc : s.cells.cell? k = some c) : s.perform (.readLoan l) = (s, .contents c.contents) := by
  rw [perform, performLoan, if_pos hl, performAt_eq hk, hc]

theorem result_write (hk : s.cell? h = some k) (hc : s.cells.cell? k = some c) (change : α → α) :
    (s.perform (.write h change)).2 = if c.borrow = .free then .done else .refused := by
  rw [perform, performAt_eq hk, Cells.write?_eq hc]
  by_cases hb : c.borrow = .free
  · rw [if_pos hb, if_pos hb]
  · rw [if_neg hb, if_neg hb]

theorem result_borrow {l : Loan} (hk : s.cell? l.handle = some k) (hc : s.cells.cell? k = some c) :
    (s.perform (.borrow l)).2 =
      if c.borrow = .free ∨ l.exclusive = false ∧ c.borrow ≠ .exclusive then .done
      else .refused := by
  rw [perform, performAt_eq hk, Cells.lend?_eq hc]
  cases l.exclusive <;> cases c.borrow <;> simp [Borrow.lend?]

theorem perform_take (hk : s.cell? h = some k) (hc : s.cells.cell? k = some c)
    (hlent : s.isLent h = false) :
    s.perform (.take h) =
      if c.handles ≤ 1 then (s.giveUp (s.cells.put k (Cells.lessOne c)) h, .taken c.contents)
      else (s, .stillShared c.handles) := by
  rw [perform, performAt_eq hk, hlent, Cells.take_eq hc]
  by_cases hlast : c.handles ≤ 1
  · rw [if_pos hlast, if_pos hlast]
    rfl
  · rw [if_neg hlast, if_neg hlast]
    rfl

theorem result_release {l : Loan} (hl : l ∈ s.loans) (hk : s.cell? l.handle = some k) :
    (s.perform (.release l)).2 = .done := by
  rw [perform, performLoan, if_pos hl, performAt_eq hk]

theorem result_writeLoan (hl : ⟨h, true⟩ ∈ s.loans) (hk : s.cell? h = some k) (change : α → α) :
    (s.perform (.writeLoan h change)).2 = .done := by
  rw [perform, performLoan, if_pos hl, performAt_eq hk]

theorem result_share (hk : s.cell? h = some k) :
    (s.perform (.share h)).2 = .handle s.next := by
  rw [perform, performAt_eq hk]

theorem result_drop (hk : s.cell? h = some k) (hlent : s.isLent h = false) :
    (s.perform (.drop h)).2 = .done := by
  rw [perform, performAt_eq hk, hlent]
  rfl

end SharedCells

/-! ### Answers and the past -/

namespace Past.Tells

open SharedCells

variable {α : Type} {past : Past α} {s : SharedCells α} {g h o : Handle} {k : CellRef} {c : Cell α}
  {x : α}

/-- A handle that the past tells to be there, with its cell. -/
theorem exists_cell (ht : past.Tells s) (hs : s.Sound) (hlive : past.isLive h = true) :
    ∃ k c o, s.cell? h = some k ∧ s.cells.cell? k = some c ∧ past.origin? h = some o ∧
      past.contents? o = some c.contents := by
  rw [ht.isLive_eq, isLive_iff] at hlive
  obtain ⟨k, hk⟩ := hlive
  obtain ⟨c, hc⟩ := hs.exists_cell hk
  obtain ⟨o, ho, hx⟩ := ht.contents?_eq h k c hk hc
  exact ⟨k, c, o, hk, hc, ho, hx⟩

/-- The handles to a cell are those with its origin. -/
theorem cell?_eq_iff (ht : past.Tells s) (hk : s.cell? h = some k) (ho : past.origin? h = some o)
    (hg : s.isLive g = true) : s.cell? g = some k ↔ past.origin? g = some o := by
  obtain ⟨l, hl⟩ := isLive_iff.mp hg
  rw [← ho, ht.origin?_eq_iff g h l k hl hk, hl, Option.some.injEq]

theorem cell?_eq_iff_of_loan (ht : past.Tells s) (hs : s.Sound) (hk : s.cell? h = some k)
    (ho : past.origin? h = some o) {l : Loan} (hl : l ∈ s.loans) :
    s.cell? l.handle = some k ↔ past.origin? l.handle = some o :=
  ht.cell?_eq_iff hk ho (hs.isLive_of_loan l hl)

theorem compare_eq (ht : past.Tells s) (hk : s.cell? h = some k) (ho : past.origin? h = some o)
    (hg : past.isLive g = true) :
    s.perform (.compare h g) = (s, .flag (decide (past.origin? g = some o))) := by
  rw [ht.isLive_eq] at hg
  obtain ⟨l, hl⟩ := isLive_iff.mp hg
  have hsame : (k == l) = decide (past.origin? g = some o) := by
    rw [Bool.eq_iff_iff, decide_eq_true_eq, ← ht.cell?_eq_iff hk ho hg, hl, Option.some.injEq,
      beq_iff_eq, eq_comm]
  rw [perform_compare hk hl, hsame]

theorem setOf_same (ht : past.Tells s) (hk : s.cell? h = some k) (ho : past.origin? h = some o) :
    {g | past.isLive g = true ∧ past.origin? g = some o} = {g | s.cell? g = some k} := by
  ext g
  constructor
  · rintro ⟨hg, hsame⟩
    rw [ht.isLive_eq] at hg
    exact (ht.cell?_eq_iff hk ho hg).mpr hsame
  · intro hg
    have hlive : s.isLive g = true := isLive_iff.mpr ⟨k, hg⟩
    exact ⟨(ht.isLive_eq g).trans hlive, (ht.cell?_eq_iff hk ho hlive).mp hg⟩

/-- A cell counts the handles with its origin. -/
theorem count_eq_ncard (ht : past.Tells s) (hs : s.Sound) (hk : s.cell? h = some k)
    (ho : past.origin? h = some o) :
    s.cells.count k = {g | past.isLive g = true ∧ past.origin? g = some o}.ncard := by
  rw [hs.count_eq, ht.setOf_same hk ho, ncard_handles]

theorem eq_exclusive_iff (ht : past.Tells s) (hs : s.Sound) (hk : s.cell? h = some k)
    (hc : s.cells.cell? k = some c) (ho : past.origin? h = some o) :
    c.borrow = .exclusive ↔
      ∃ l ∈ past.loans, past.origin? l.handle = some o ∧ l.exclusive = true := by
  rw [hs.eq_exclusive_iff hc, ht.loans_eq]
  exact exists_congr fun l => and_congr_right fun hl =>
    and_congr_left fun _ => ht.cell?_eq_iff_of_loan hs hk ho hl

theorem eq_free_iff (ht : past.Tells s) (hs : s.Sound) (hk : s.cell? h = some k)
    (hc : s.cells.cell? k = some c) (ho : past.origin? h = some o) :
    c.borrow = .free ↔ ∀ l ∈ past.loans, past.origin? l.handle ≠ some o := by
  rw [hs.eq_free_iff hc, ht.loans_eq]
  exact forall₂_congr fun l hl => not_congr (ht.cell?_eq_iff_of_loan hs hk ho hl)

theorem result_write (ht : past.Tells s) (hs : s.Sound) (hk : s.cell? h = some k)
    (hc : s.cells.cell? k = some c) (ho : past.origin? h = some o) (change : α → α) :
    (s.perform (.write h change)).2 =
      if ∃ l ∈ past.loans, past.origin? l.handle = some o then .refused else .done := by
  rw [SharedCells.result_write hk hc]
  by_cases hlent : ∃ l ∈ past.loans, past.origin? l.handle = some o
  · rw [if_pos hlent, if_neg]
    intro hfree
    obtain ⟨l, hl, hsame⟩ := hlent
    exact (ht.eq_free_iff hs hk hc ho).mp hfree l hl hsame
  · rw [if_neg hlent, if_pos]
    rw [ht.eq_free_iff hs hk hc ho]
    exact fun l hl hsame => hlent ⟨l, hl, hsame⟩

theorem result_borrow (ht : past.Tells s) (hs : s.Sound) (hk : s.cell? h = some k)
    (hc : s.cells.cell? k = some c) (ho : past.origin? h = some o) (exclusive : Bool) :
    (s.perform (.borrow ⟨h, exclusive⟩)).2 =
      if ∃ l ∈ past.loans, past.origin? l.handle = some o ∧ (exclusive = true ∨ l.exclusive = true)
        then .refused else .done := by
  have hlent : (∃ l ∈ s.loans, s.cell? l.handle = some k ∧ (exclusive = true ∨ l.exclusive = true)) ↔
      ∃ l ∈ past.loans, past.origin? l.handle = some o ∧ (exclusive = true ∨ l.exclusive = true) := by
    rw [ht.loans_eq]
    exact exists_congr fun l => and_congr_right fun hl =>
      and_congr_left fun _ => ht.cell?_eq_iff_of_loan hs hk ho hl
  rw [SharedCells.result_borrow hk hc]
  simp only [hs.can_lend_iff hc, hlent, ite_not]

theorem isLent_eq_false (ht : past.Tells s) (h : ∀ l ∈ past.loans, l.handle ≠ g) :
    s.isLent g = false := by
  rw [isLent, List.any_eq_false, ← ht.loans_eq]
  exact fun l hl hsame => h l hl (of_decide_eq_true hsame)

theorem handles_le_one_iff (ht : past.Tells s) (hs : s.Sound) (hk : s.cell? h = some k)
    (hc : s.cells.cell? k = some c) (ho : past.origin? h = some o) :
    c.handles ≤ 1 ↔ ∀ g, past.isLive g = true → past.origin? g = some o → g = h := by
  have hset := ht.setOf_same hk ho
  have hmem : past.isLive h = true ∧ past.origin? h = some o :=
    ⟨(ht.isLive_eq h).trans (isLive_iff.mpr ⟨k, hk⟩), ho⟩
  have hfinite : {g | past.isLive g = true ∧ past.origin? g = some o}.Finite := by
    rw [hset]
    exact finite_handles hk
  rw [hs.handles_eq hc, ← ncard_handles, ← hset, Set.ncard_le_one hfinite]
  constructor
  · intro hall g hg hsame
    exact hall g ⟨hg, hsame⟩ h hmem
  · rintro hall g ⟨hg, hsame⟩ g' ⟨hg', hsame'⟩
    rw [hall g hg hsame, hall g' hg' hsame']

end Past.Tells

namespace SharedCells

variable {α : Type} {s : SharedCells α}

/-! ### Runs -/

/-- The deeds of actions, after those of the past. -/
def deeds (s : SharedCells α) (past : Past α) : List (CellAction α) → Past α
  | [] => past
  | a :: rest => (s.perform a).1.deeds (a.deed (s.perform a).2 :: past) rest

theorem performAll_cons (s : SharedCells α) (a : CellAction α) (rest : List (CellAction α)) :
    (s.performAll (a :: rest)).1 = ((s.perform a).1.performAll rest).1 := rfl

theorem performAll_append (s : SharedCells α) (actions more : List (CellAction α)) :
    (s.performAll (actions ++ more)).1 = ((s.performAll actions).1.performAll more).1 := by
  induction actions generalizing s with
  | nil => rfl
  | cons a rest ih =>
      rw [List.cons_append, performAll_cons, performAll_cons]
      exact ih _

theorem Sound.performAll (hs : s.Sound) (actions : List (CellAction α)) :
    (s.performAll actions).1.Sound := by
  induction actions generalizing s with
  | nil => exact hs
  | cons a rest ih =>
      rw [performAll_cons]
      exact ih (hs.effect (hs.effect_perform a))

theorem tells_performAll (hs : s.Sound) {past : Past α} (ht : past.Tells s)
    (actions : List (CellAction α)) :
    (s.deeds past actions).Tells (s.performAll actions).1 := by
  induction actions generalizing s past with
  | nil => exact ht
  | cons a rest ih =>
      rw [performAll_cons]
      have heffect := hs.effect_perform a
      exact ih (hs.effect heffect) (ht.effect hs heffect)

/-- After every run, the answers through a handle that is there follow from the deeds before.  Another
handle is to the same cell exactly when both were obtained by sharing from the handle of one new cell,
and the count tells how many such handles there are.  The cell holds what it was made with, changed
by every writing through one of those handles and by no other; it can be read unless an exclusive
borrow of it runs, and written unless any does.  The contents are taken out exactly through the last
handle, and otherwise nothing changes. -/
theorem answers_of_run (actions : List (CellAction α)) :
    let s := (empty.performAll actions).1
    let past := (empty : SharedCells α).deeds [] actions
    (∀ x, ∃ g, (s.perform (.new x)).2 = .handle g ∧ past.origin? g = none) ∧
      (∀ l ∈ past.loans, past.isLive l.handle = true ∧ (s.perform (.release l)).2 = .done ∧
        (l.exclusive = true → ∀ change, (s.perform (.writeLoan l.handle change)).2 = .done)) ∧
      ∀ h, past.isLive h = true → ∃ o x, past.origin? h = some o ∧ past.contents? o = some x ∧
        (∃ g, (s.perform (.share h)).2 = .handle g ∧ past.origin? g = none) ∧
        (∀ g, past.isLive g = true →
          s.perform (.compare h g) = (s, .flag (decide (past.origin? g = past.origin? h)))) ∧
        s.perform (.count h) =
          (s, .number {g | past.isLive g = true ∧
            (s.perform (.compare h g)).2 = .flag true}.ncard) ∧
        s.perform (.read h) =
          (s, if ∃ l ∈ past.loans, past.origin? l.handle = some o ∧ l.exclusive = true
            then .refused else .contents x) ∧
        (∀ l ∈ past.loans, l.handle = h → s.perform (.readLoan l) = (s, .contents x)) ∧
        (∀ change, (s.perform (.write h change)).2 =
          if ∃ l ∈ past.loans, past.origin? l.handle = some o then .refused else .done) ∧
        (∀ exclusive, (s.perform (.borrow ⟨h, exclusive⟩)).2 =
          if ∃ l ∈ past.loans, past.origin? l.handle = some o ∧
              (exclusive = true ∨ l.exclusive = true)
            then .refused else .done) ∧
        ((∀ l ∈ past.loans, l.handle ≠ h) →
          (s.perform (.drop h)).2 = .done ∧
          ((∀ g, past.isLive g = true → past.origin? g = some o → g = h) →
            (s.perform (.take h)).2 = .taken x) ∧
          ∀ g, past.isLive g = true → past.origin? g = some o → g ≠ h →
            s.perform (.take h) = (s, .stillShared
              {g | past.isLive g = true ∧ (s.perform (.compare h g)).2 = .flag true}.ncard)) := by
  intro s past
  have hs : s.Sound := sound_empty.performAll actions
  have ht : past.Tells s := tells_performAll sound_empty .empty actions
  refine ⟨fun x => ⟨s.next, rfl, ht.origin?_next⟩, fun l hl => ?_, fun h hlive => ?_⟩
  · rw [ht.loans_eq] at hl
    have hheld := hs.isLive_of_loan l hl
    obtain ⟨k, hk⟩ := isLive_iff.mp hheld
    refine ⟨(ht.isLive_eq l.handle).trans hheld, result_release hl hk, fun hexclusive change => ?_⟩
    refine result_writeLoan ?_ hk change
    rw [← hexclusive]
    exact hl
  · obtain ⟨k, c, o, hk, hc, ho, hx⟩ := ht.exists_cell hs hlive
    have hcompare : ∀ g, past.isLive g = true →
        s.perform (.compare h g) = (s, .flag (decide (past.origin? g = some o))) :=
      fun g hg => ht.compare_eq hk ho hg
    have hset : {g | past.isLive g = true ∧ (s.perform (.compare h g)).2 = .flag true} =
        {g | past.isLive g = true ∧ past.origin? g = some o} := by
      ext g
      refine and_congr_right fun hg => ?_
      rw [hcompare g hg, CellResult.flag.injEq, decide_eq_true_eq]
    have hcount := ht.count_eq_ncard hs hk ho
    refine ⟨o, c.contents, ho, hx, ⟨s.next, result_share hk, ht.origin?_next⟩, ?_, ?_, ?_, ?_, ?_, ?_,
      ?_⟩
    · rw [ho]
      exact hcompare
    · rw [perform_count hk, hset, hcount]
    · simp only [perform_read hk hc, ht.eq_exclusive_iff hs hk hc ho]
    · rintro l hl rfl
      rw [ht.loans_eq] at hl
      exact perform_readLoan hl hk hc
    · exact ht.result_write hs hk hc ho
    · exact ht.result_borrow hs hk hc ho
    · intro hnone
      have hlent := ht.isLent_eq_false hnone
      have hlast := ht.handles_le_one_iff hs hk hc ho
      refine ⟨result_drop hk hlent, fun hall => ?_, fun g hg hsame hne => ?_⟩
      · rw [perform_take hk hc hlent, if_pos (hlast.mpr hall)]
      · rw [perform_take hk hc hlent, if_neg, hset, ← hcount, hs.handles_eq hc, ← hs.count_eq]
        exact fun hle => hne (hlast.mp hle g hg hsame)

/-- Two handles to one cell, one of them lent to a reader, beside the only handle to another cell. -/
theorem answers_beside_loan :
    let actions : List (CellAction Nat) :=
      [.new 1, .share ⟨0⟩, .new 7, .write ⟨1⟩ (· + 10), .borrow ⟨⟨1⟩, false⟩]
    let s := (empty.performAll actions).1
    s.perform (.compare ⟨0⟩ ⟨1⟩) = (s, .flag true) ∧
      s.perform (.compare ⟨0⟩ ⟨2⟩) = (s, .flag false) ∧
      s.perform (.read ⟨0⟩) = (s, .contents 11) ∧
      s.perform (.readLoan ⟨⟨1⟩, false⟩) = (s, .contents 11) ∧
      (s.perform (.write ⟨0⟩ (· + 1))).2 = .refused ∧ (s.perform (.take ⟨0⟩)).1 = s ∧
      (s.perform (.take ⟨2⟩)).2 = .taken 7 := by
  intro actions s
  obtain ⟨-, -, hanswers⟩ := answers_of_run actions
  -- the three handles, with their origins and what their cells hold
  obtain ⟨o, x, ho, hx, -, hsame, -, hread, -, hwrite, -, hunlent⟩ := hanswers ⟨0⟩ rfl
  obtain ⟨o', x', ho', hx', -, -, -, -, hloan, -⟩ := hanswers ⟨1⟩ rfl
  obtain ⟨o'', x'', ho'', hx'', -, -, -, -, -, -, -, hunlent''⟩ := hanswers ⟨2⟩ rfl
  obtain rfl : (⟨0⟩ : Handle) = o := Option.some.inj ho
  obtain rfl : (⟨0⟩ : Handle) = o' := Option.some.inj ho'
  obtain rfl : (⟨2⟩ : Handle) = o'' := Option.some.inj ho''
  obtain rfl : 11 = x := Option.some.inj hx
  obtain rfl : 11 = x' := Option.some.inj hx'
  obtain rfl : 7 = x'' := Option.some.inj hx''
  obtain ⟨-, -, hshared⟩ := hunlent (by decide)
  obtain ⟨-, hlast, -⟩ := hunlent'' (by decide)
  refine ⟨hsame ⟨1⟩ rfl, hsame ⟨2⟩ rfl, hread, hloan _ (by decide) rfl, hwrite _, ?_, hlast ?_⟩
  · rw [hshared ⟨1⟩ rfl rfl (by decide)]
  · intro g hg horigin
    have hmade : (decide (g = ⟨2⟩) || (decide (g = ⟨1⟩) || (decide (g = ⟨0⟩) || false))) = true := hg
    simp only [Bool.or_eq_true, decide_eq_true_eq, Bool.false_eq_true, or_false] at hmade
    rcases hmade with rfl | rfl | rfl
    · rfl
    · cases horigin
    · cases horigin

end SharedCells

end ScopeChain
