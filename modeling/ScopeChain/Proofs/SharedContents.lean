import ScopeChain.Proofs.CellEffects

/-!
What the past of a run tells about shared cells.  The deeds of a run alone say which handles are
there, from which new cell each of them was obtained by sharing, and what was written to that cell.
The cells agree with this account after every run.
-/

namespace ScopeChain

/-- The deeds of a run, the latest first. -/
abbrev Past (α : Type) :=
  List (Deed α)

namespace Past

variable {α : Type}

/-- The first handle of the cell from which the handle was obtained by sharing. -/
def origin? : Past α → Handle → Option Handle
  | [], _ => none
  | .made g _ :: past, h => if h = g then some g else origin? past h
  | .shared f g :: past, h => if h = g then origin? past f else origin? past h
  | .idle :: past, h | .gaveUp _ :: past, h | .wrote _ _ :: past, h
  | .lent _ :: past, h | .released _ :: past, h => origin? past h

/-- Whether the handle was made and not given up since. -/
def isLive : Past α → Handle → Bool
  | [], _ => false
  | .made g _ :: past, h | .shared _ g :: past, h => h = g || isLive past h
  | .gaveUp g :: past, h => h ≠ g && isLive past h
  | .idle :: past, h | .wrote _ _ :: past, h
  | .lent _ :: past, h | .released _ :: past, h => isLive past h

/-- The borrows that were begun and not released since. -/
def loans : Past α → List Loan
  | [] => []
  | .lent l :: past => l :: loans past
  | .released l :: past => (loans past).erase l
  | .idle :: past | .made _ _ :: past | .shared _ _ :: past | .gaveUp _ :: past
  | .wrote _ _ :: past => loans past

/-- The contents of the cell with the first handle `o`: those it was made with, changed by every
writing through a handle that was obtained from `o`, in turn. -/
def contents? : Past α → Handle → Option α
  | [], _ => none
  | .made g x :: past, o => if o = g then some x else contents? past o
  | .wrote h change :: past, o =>
      if origin? past h = some o then (contents? past o).map change else contents? past o
  | .idle :: past, o | .gaveUp _ :: past, o | .shared _ _ :: past, o
  | .lent _ :: past, o | .released _ :: past, o => contents? past o

/-- The cells are as the past tells. -/
structure Tells (past : Past α) (s : SharedCells α) : Prop where
  isLive_eq : ∀ h, past.isLive h = s.isLive h
  loans_eq : past.loans = s.loans
  index_lt : ∀ h o, past.origin? h = some o → h.index < s.handles.size ∧ o.index < s.handles.size
  origin?_eq_iff : ∀ g h k l, s.cell? g = some k → s.cell? h = some l →
    (past.origin? g = past.origin? h ↔ k = l)
  contents?_eq : ∀ h k c, s.cell? h = some k → s.cells.cell? k = some c →
    ∃ o, past.origin? h = some o ∧ past.contents? o = some c.contents

namespace Tells

open SharedCells

variable {past : Past α} {s after : SharedCells α} {h : Handle} {k : CellRef} {c : Cell α}

theorem empty : Tells [] (SharedCells.empty : SharedCells α) where
  isLive_eq _ := rfl
  loans_eq := rfl
  index_lt _ _ ho := by cases ho
  origin?_eq_iff _ _ _ _ hk := by cases hk
  contents?_eq _ _ _ hk := by cases hk

/-- A deed that concerns neither handles nor contents leaves what is told of them. -/
theorem kept (ht : Tells past s) {past' : Past α} (hlive : ∀ h, past'.isLive h = past.isLive h)
    (horigin : ∀ h, past'.origin? h = past.origin? h)
    (hcontents : ∀ o, past'.contents? o = past.contents? o) (hloans : past'.loans = after.loans)
    (hhandles : after.handles = s.handles)
    (hcells : ∀ k, (after.cells.cell? k).map Cell.contents = (s.cells.cell? k).map Cell.contents) :
    Tells past' after := by
  have hcell : ∀ g, after.cell? g = s.cell? g := fun g => by rw [cell?, cell?, hhandles]
  refine ⟨fun g => ?_, hloans, fun g o ho => ?_, fun g h k l hg hh => ?_, fun g k c hg hc => ?_⟩
  · rw [hlive, SharedCells.isLive, hcell]
    exact ht.isLive_eq g
  · rw [horigin] at ho
    rw [hhandles]
    exact ht.index_lt g o ho
  · rw [hcell] at hg hh
    rw [horigin, horigin]
    exact ht.origin?_eq_iff g h k l hg hh
  · rw [hcell] at hg
    have hsame := hcells k
    rw [hc] at hsame
    obtain ⟨c', hc', heq⟩ := Option.map_eq_some_iff.mp hsame.symm
    obtain ⟨o, ho, hx⟩ := ht.contents?_eq g k c' hg hc'
    exact ⟨o, (horigin g).trans ho, by rw [hcontents, hx, heq]⟩

/-- The next handle was never made. -/
theorem origin?_next (ht : Tells past s) : past.origin? s.next = none := by
  cases ho : past.origin? s.next with
  | none => rfl
  | some o => exact absurd (ht.index_lt s.next o ho).1 (Nat.lt_irrefl _)

theorem origin?_ne_next (ht : Tells past s) (g : Handle) : past.origin? g ≠ some s.next :=
  fun ho => absurd (ht.index_lt g s.next ho).2 (Nat.lt_irrefl _)

/-- Which handles there are after one more, and those that there were. -/
theorem cell?_give_cases {cells : Cells α} {g : Handle} {l : CellRef}
    (hg : (s.give cells k).cell? g = some l) :
    g = s.next ∧ l = k ∨ g ≠ s.next ∧ s.cell? g = some l := by
  rw [cell?_give] at hg
  split at hg
  · rename_i hnext
    exact .inl ⟨hnext, (Option.some.inj hg).symm⟩
  · rename_i hnext
    exact .inr ⟨hnext, hg⟩

theorem made (ht : Tells past s) (hs : s.Sound) (x : α) :
    Tells (.made s.next x :: past) (s.give (s.cells.new x).1 (s.cells.new x).2) := by
  have hfresh : ∀ g l, s.cell? g = some l → l ≠ (s.cells.new x).2 := by
    rintro g l hg rfl
    obtain ⟨c, hc⟩ := hs.exists_cell hg
    rw [Cells.cell?_new_snd] at hc
    cases hc
  refine ⟨fun g => ?_, ht.loans_eq, fun g o ho => ?_, fun g h k l hg hh => ?_,
    fun g k c hg hc => ?_⟩
  · rw [Past.isLive, isLive_give, ht.isLive_eq]
  · rw [size_give]
    rw [origin?] at ho
    split at ho
    · rename_i hnext
      obtain rfl := Option.some.inj ho
      exact ⟨hnext ▸ Nat.lt_succ_self _, Nat.lt_succ_self _⟩
    · obtain ⟨hg, ho⟩ := ht.index_lt g o ho
      exact ⟨Nat.lt_succ_of_lt hg, Nat.lt_succ_of_lt ho⟩
  · rw [origin?, origin?]
    rcases cell?_give_cases hg with ⟨rfl, rfl⟩ | ⟨hgn, hg⟩
    · rcases cell?_give_cases hh with ⟨rfl, rfl⟩ | ⟨hhn, hh⟩
      · exact ⟨fun _ => rfl, fun _ => rfl⟩
      · rw [if_pos rfl, if_neg hhn]
        exact ⟨fun ho => absurd ho.symm (ht.origin?_ne_next h),
          fun hkl => absurd hkl.symm (hfresh h l hh)⟩
    · rcases cell?_give_cases hh with ⟨rfl, rfl⟩ | ⟨hhn, hh⟩
      · rw [if_neg hgn, if_pos rfl]
        exact ⟨fun ho => absurd ho (ht.origin?_ne_next g), fun hkl => absurd hkl (hfresh g k hg)⟩
      · rw [if_neg hgn, if_neg hhn]
        exact ht.origin?_eq_iff g h k l hg hh
  · change (s.cells.new x).1.cell? k = some c at hc
    rw [Cells.cell?_new] at hc
    rcases cell?_give_cases hg with ⟨rfl, rfl⟩ | ⟨hgn, hg⟩
    · rw [if_pos rfl] at hc
      obtain rfl := Option.some.inj hc
      exact ⟨s.next, by rw [origin?, if_pos rfl], by rw [contents?, if_pos rfl]⟩
    · rw [if_neg (hfresh g k hg)] at hc
      obtain ⟨o, ho, hx⟩ := ht.contents?_eq g k c hg hc
      refine ⟨o, by rw [origin?, if_neg hgn, ho], ?_⟩
      rw [contents?, if_neg, hx]
      rintro rfl
      exact ht.origin?_ne_next g ho

theorem shared (ht : Tells past s) (hk : s.cell? h = some k) (hc : s.cells.cell? k = some c) :
    Tells (.shared h s.next :: past)
      (s.give (s.cells.put k (some { c with handles := c.handles + 1 })) k) := by
  -- The new handle is to the cell of `h`, and has the origin of `h`.
  have hsource : ∀ g l, (s.give (s.cells.put k (some { c with handles := c.handles + 1 })) k).cell? g =
      some l → ∃ f, s.cell? f = some l ∧ origin? (.shared h s.next :: past) g = past.origin? f := by
    intro g l hg
    rcases cell?_give_cases hg with ⟨rfl, rfl⟩ | ⟨hgn, hg⟩
    · exact ⟨h, hk, by rw [origin?, if_pos rfl]⟩
    · exact ⟨g, hg, by rw [origin?, if_neg hgn]⟩
  refine ⟨fun g => ?_, ht.loans_eq, fun g o ho => ?_, fun g g' l l' hg hg' => ?_,
    fun g l found hg hfound => ?_⟩
  · rw [Past.isLive, isLive_give, ht.isLive_eq]
  · rw [size_give]
    rw [origin?] at ho
    split at ho
    · rename_i hnext
      exact ⟨hnext ▸ Nat.lt_succ_self _, Nat.lt_succ_of_lt (ht.index_lt h o ho).2⟩
    · obtain ⟨hg, ho⟩ := ht.index_lt g o ho
      exact ⟨Nat.lt_succ_of_lt hg, Nat.lt_succ_of_lt ho⟩
  · obtain ⟨f, hf, ho⟩ := hsource g l hg
    obtain ⟨f', hf', ho'⟩ := hsource g' l' hg'
    rw [ho, ho']
    exact ht.origin?_eq_iff f f' l l' hf hf'
  · obtain ⟨f, hf, ho⟩ := hsource g l hg
    change (s.cells.put k _).cell? l = some found at hfound
    rw [Cells.cell?_put hc] at hfound
    rw [ho]
    split at hfound
    · rename_i hkl
      obtain rfl := Option.some.inj hfound
      exact ht.contents?_eq f l c hf (hkl ▸ hc)
    · exact ht.contents?_eq f l found hf hfound

theorem gaveUp (ht : Tells past s) (hc : s.cells.cell? k = some c) (h : Handle) :
    Tells (.gaveUp h :: past) (s.giveUp (s.cells.put k (Cells.lessOne c)) h) := by
  have hstays : ∀ g l, (s.giveUp (s.cells.put k (Cells.lessOne c)) h).cell? g = some l →
      s.cell? g = some l := by
    intro g l hg
    rw [cell?_giveUp] at hg
    split at hg
    · cases hg
    · exact hg
  refine ⟨fun g => ?_, ht.loans_eq, fun g o ho => ?_, fun g g' l l' hg hg' => ?_,
    fun g l found hg hfound => ?_⟩
  · rw [Past.isLive, isLive_giveUp, ht.isLive_eq]
  · rw [size_giveUp]
    exact ht.index_lt g o ho
  · exact ht.origin?_eq_iff g g' l l' (hstays g l hg) (hstays g' l' hg')
  · change (s.cells.put k _).cell? l = some found at hfound
    rw [Cells.cell?_put hc] at hfound
    split at hfound
    · rename_i hkl
      rw [Cells.lessOne] at hfound
      split at hfound
      · cases hfound
      · obtain rfl := Option.some.inj hfound
        exact ht.contents?_eq g l c (hstays g l hg) (hkl ▸ hc)
    · exact ht.contents?_eq g l found (hstays g l hg) hfound

theorem wrote (ht : Tells past s) (hk : s.cell? h = some k) (hc : s.cells.cell? k = some c)
    (change : α → α) :
    Tells (.wrote h change :: past)
      { s with cells := s.cells.put k (some { c with contents := change c.contents }) } := by
  refine ⟨ht.isLive_eq, ht.loans_eq, ht.index_lt, ht.origin?_eq_iff,
    fun g l found hg hfound => ?_⟩
  change s.cell? g = some l at hg
  change (s.cells.put k _).cell? l = some found at hfound
  change ∃ o, past.origin? g = some o ∧ _
  have hsame := ht.origin?_eq_iff g h l k hg hk
  rw [Cells.cell?_put hc] at hfound
  split at hfound
  · rename_i hkl
    obtain rfl := Option.some.inj hfound
    obtain ⟨o, ho, hx⟩ := ht.contents?_eq g l c hg (hkl ▸ hc)
    refine ⟨o, ho, ?_⟩
    rw [contents?, if_pos ((hsame.mpr hkl.symm).symm.trans ho), hx, Option.map_some]
  · rename_i hkl
    obtain ⟨o, ho, hx⟩ := ht.contents?_eq g l found hg hfound
    refine ⟨o, ho, ?_⟩
    rw [contents?, if_neg, hx]
    intro ho'
    exact hkl (hsame.mp (ho.trans ho'.symm)).symm

theorem effect (ht : Tells past s) (hs : s.Sound) {d : Deed α} (heffect : Effect s d after) :
    Tells (d :: past) after := by
  cases heffect with
  | idle =>
      exact ht.kept (fun _ => rfl) (fun _ => rfl) (fun _ => rfl) ht.loans_eq rfl fun _ => rfl
  | made x => exact ht.made hs x
  | shared hk hc => exact ht.shared hk hc
  | gaveUp hk hc hlent => exact ht.gaveUp hc _
  | wrote change hk hc => exact ht.wrote hk hc change
  | lent hk hc hb =>
      exact ht.kept (fun _ => rfl) (fun _ => rfl) (fun _ => rfl)
        (congrArg (List.cons _) ht.loans_eq) rfl (Cells.contents_put hc rfl)
  | released hl hk hc =>
      exact ht.kept (fun _ => rfl) (fun _ => rfl) (fun _ => rfl)
        (congrArg (List.erase · _) ht.loans_eq) rfl (Cells.contents_put hc rfl)

end Tells

end Past

end ScopeChain
