import ScopeChain.Cell.Script
import ScopeChain.Proofs.CellRuns
import Std.Data.TreeMap.Lemmas

/-!
Scripts on shared cells.  Whatever a script does to cells, it does by actions, and every handle that
it makes is either in one register or kept by one of the holds that run.  So a count tells how many
registers and holds there are to the cell, and a script that comes to its end leaves no borrow behind
and no handle outside the registers.
-/

namespace ScopeChain

namespace Deed

variable {α : Type}

/-- The handles outside the registers, after a deed. -/
def kept : Deed α → List Handle → List Handle
  | .made g _, kept | .shared _ g, kept => g :: kept
  | .gaveUp h, kept => kept.erase h
  | .idle, kept | .wrote _ _, kept | .lent _, kept | .released _, kept => kept

/-- The borrows that run, after a deed. -/
def loans : Deed α → List Loan → List Loan
  | .lent l, loans => l :: loans
  | .released l, loans => loans.erase l
  | .idle, loans | .made _ _, loans | .shared _ _, loans | .gaveUp _, loans
  | .wrote _ _, loans => loans

/-- The deed gives up and lends none but these handles. -/
def Within : Deed α → List Handle → Prop
  | .gaveUp h, kept => h ∈ kept
  | .lent l, kept => l.handle ∈ kept
  | .idle, _ | .made _ _, _ | .shared _ _, _ | .wrote _ _, _ | .released _, _ => True

end Deed

/-- A new handle to a cell is lent unless a borrow of the cell that runs forbids it. -/
theorem SharedCells.Sound.result_borrow_shared {α : Type} {s : SharedCells α} (hs : s.Sound)
    {h : Handle} {k : CellRef} (hk : s.cell? h = some k) (exclusive : Bool) :
    ((s.perform (.share h)).1.perform (.borrow ⟨s.next, exclusive⟩)).2 =
      if ∃ l ∈ s.loans, s.cell? l.handle = some k ∧ (exclusive = true ∨ l.exclusive = true)
        then .refused else .done := by
  obtain ⟨c, hc⟩ := hs.exists_cell hk
  obtain ⟨after, hafter⟩ : ∃ after, after =
      s.give (s.cells.put k (some { c with handles := c.handles + 1 })) k := ⟨_, rfl⟩
  have hshare : (s.perform (.share h)).1 = after := by
    rw [hafter, perform, performAt_eq hk, Cells.share_eq hc]
  have hsound : after.Sound := hafter ▸ hs.shared hc
  have hnext : after.cell? s.next = some k := by
    rw [hafter, cell?_give, if_pos rfl]
  have hcell : after.cells.cell? k = some { c with handles := c.handles + 1 } := by
    rw [hafter]
    exact (Cells.cell?_put hc _ k).trans (if_pos rfl)
  have hlent : (∃ l ∈ after.loans, after.cell? l.handle = some k ∧
      (exclusive = true ∨ l.exclusive = true)) ↔
      ∃ l ∈ s.loans, s.cell? l.handle = some k ∧ (exclusive = true ∨ l.exclusive = true) := by
    rw [hafter]
    refine exists_congr fun l => and_congr_right fun hl => ?_
    rw [hs.cell?_give_of_loan _ _ l hl]
  rw [hshare]
  refine (result_borrow hnext hcell).trans ?_
  simp only [hsound.can_lend_iff hcell, hlent, ite_not]

namespace CellScript.State

open SharedCells

variable {s after : State} {loans : List Loan} {kept : List Handle} {g h : Handle} {k : CellRef}
  {register : String}

/-- Every handle is in one register or kept outside, and only those outside are lent. -/
structure Kept (s : State) (loans : List Loan) (kept : List Handle) : Prop where
  run : ∃ actions, s.shared = (SharedCells.empty.performAll actions).1
  loans_eq : s.shared.loans = loans
  isLive_iff : ∀ h : Handle,
    s.shared.isLive h = true ↔ h ∈ kept ∨ ∃ r : String, s.registers[r]? = some h
  nodup : kept.Nodup
  not_kept : ∀ (r : String) (h : Handle), s.registers[r]? = some h → h ∉ kept
  register_eq : ∀ (r r' : String) (h : Handle), s.registers[r]? = some h →
    s.registers[r']? = some h → r = r'
  kept_of_loan : ∀ l ∈ loans, l.handle ∈ kept

namespace Kept

theorem empty : State.empty.Kept [] [] where
  run := ⟨[], rfl⟩
  loans_eq := rfl
  isLive_iff h := by simp [State.empty, SharedCells.empty, isLive, cell?]
  nodup := List.nodup_nil
  not_kept r h _ := List.not_mem_nil
  register_eq r r' h hr := by simp [State.empty] at hr
  kept_of_loan _ hl := absurd hl List.not_mem_nil

theorem sound (hs : s.Kept loans kept) : s.shared.Sound := by
  obtain ⟨actions, hrun⟩ := hs.run
  rw [hrun]
  exact sound_empty.performAll actions

theorem isLive_of_register (hs : s.Kept loans kept) (hr : s.registers[register]? = some h) :
    s.shared.isLive h = true :=
  (hs.isLive_iff h).mpr (.inr ⟨register, hr⟩)

theorem answer (hs : s.Kept loans kept) (a : Answer) : (s.answer a).Kept loans kept :=
  ⟨hs.run, hs.loans_eq, hs.isLive_iff, hs.nodup, hs.not_kept, hs.register_eq, hs.kept_of_loan⟩

/-! ### Actions -/

theorem given (hs : s.Kept loans kept) {cells : Cells (List Int64)}
    (hrun : ∃ actions, s.shared.give cells k = (SharedCells.empty.performAll actions).1) :
    Kept { s with shared := s.shared.give cells k } loans (s.shared.next :: kept) := by
  have hnext : ¬ s.shared.isLive s.shared.next = true := by
    rw [isLive, cell?_next]
    exact Bool.false_ne_true
  refine ⟨hrun, hs.loans_eq, fun g => ?_, ?_, fun r g hr => ?_, hs.register_eq,
    fun l hl => List.mem_cons_of_mem _ (hs.kept_of_loan l hl)⟩
  · rw [isLive_give, Bool.or_eq_true, decide_eq_true_eq, hs.isLive_iff, List.mem_cons, or_assoc]
  · exact List.nodup_cons.mpr ⟨fun hmem => hnext ((hs.isLive_iff _).mpr (.inl hmem)), hs.nodup⟩
  · rw [List.mem_cons, not_or]
    refine ⟨?_, hs.not_kept r g hr⟩
    rintro rfl
    exact hnext (hs.isLive_of_register hr)

theorem givenUp (hs : s.Kept loans kept) {cells : Cells (List Int64)} (hh : h ∈ kept)
    (hlent : s.shared.isLent h = false)
    (hrun : ∃ actions, s.shared.giveUp cells h = (SharedCells.empty.performAll actions).1) :
    Kept { s with shared := s.shared.giveUp cells h } loans (kept.erase h) := by
  refine ⟨hrun, hs.loans_eq, fun g => ?_, hs.nodup.erase h,
    fun r g hr hmem => hs.not_kept r g hr (List.mem_of_mem_erase hmem), hs.register_eq,
    fun l hl => ?_⟩
  · have hother : (∃ r : String, s.registers[r]? = some g) → g ≠ h := by
      rintro ⟨r, hr⟩ rfl
      exact hs.not_kept r g hr hh
    rw [isLive_giveUp, Bool.and_eq_true, decide_eq_true_eq, hs.isLive_iff, hs.nodup.mem_erase_iff,
      and_or_left, and_iff_right_of_imp hother]
  · rw [hs.nodup.mem_erase_iff]
    rw [← hs.loans_eq] at hl
    exact ⟨(not_lent_of_loan hlent hl).symm, hs.kept_of_loan l (hs.loans_eq ▸ hl)⟩

theorem effect (hs : s.Kept loans kept) {d : Deed (List Int64)} (hwithin : d.Within kept)
    {shared : SharedCells (List Int64)} (heffect : s.shared.Effect d shared)
    (hrun : ∃ actions, shared = (SharedCells.empty.performAll actions).1) :
    Kept { s with shared } (d.loans loans) (d.kept kept) := by
  cases heffect with
  | idle => exact hs
  | made x => exact hs.given hrun
  | shared hk hc => exact hs.given hrun
  | gaveUp hk hc hlent => exact hs.givenUp hwithin hlent hrun
  | wrote change hk hc =>
      exact ⟨hrun, hs.loans_eq, hs.isLive_iff, hs.nodup, hs.not_kept, hs.register_eq,
        hs.kept_of_loan⟩
  | lent hk hc hb =>
      refine ⟨hrun, congrArg (List.cons _) hs.loans_eq, hs.isLive_iff, hs.nodup, hs.not_kept,
        hs.register_eq, ?_⟩
      exact List.forall_mem_cons.mpr ⟨hwithin, hs.kept_of_loan⟩
  | released hl hk hc =>
      exact ⟨hrun, congrArg (List.erase · _) hs.loans_eq, hs.isLive_iff, hs.nodup, hs.not_kept,
        hs.register_eq, fun l hl => hs.kept_of_loan l (List.mem_of_mem_erase hl)⟩

theorem perform (hs : s.Kept loans kept) {a : CellAction (List Int64)}
    {r : CellResult (List Int64)} (hperform : s.perform a = (after, r))
    (hwithin : (a.deed r).Within kept) :
    after.Kept ((a.deed r).loans loans) ((a.deed r).kept kept) := by
  obtain ⟨rfl, rfl⟩ := Prod.mk.inj hperform
  refine hs.effect hwithin (hs.sound.effect_perform a) ?_
  obtain ⟨actions, hrun⟩ := hs.run
  exact ⟨actions ++ [a], by rw [performAll_append, ← hrun]; rfl⟩

/-! ### Registers -/

section Registers

variable {registers filled : Std.TreeMap String Handle}

theorem exists_filled_iff (hempty : registers[register]? = none)
    (hfilled : ∀ r : String, filled[r]? = if register = r then some h else registers[r]?) :
    (∃ r : String, filled[r]? = some g) ↔ g = h ∨ ∃ r : String, registers[r]? = some g := by
  simp only [hfilled]
  constructor
  · rintro ⟨r, hr⟩
    split at hr
    · exact .inl (Option.some.inj hr).symm
    · exact .inr ⟨r, hr⟩
  · rintro (rfl | ⟨r, hr⟩)
    · exact ⟨register, if_pos rfl⟩
    · refine ⟨r, ?_⟩
      rw [if_neg, hr]
      rintro rfl
      rw [hempty] at hr
      cases hr

theorem emptied (hempty : registers[register]? = none)
    (hfilled : ∀ r : String, filled[r]? = if register = r then some h else registers[r]?)
    (hs : Kept { s with registers := filled } loans kept) :
    Kept { s with registers } loans (h :: kept) := by
  have hregister : filled[register]? = some h := by rw [hfilled, if_pos rfl]
  have hfilled_of : ∀ (r : String) (g : Handle), registers[r]? = some g →
      register ≠ r ∧ filled[r]? = some g := by
    intro r g hr
    have hne : register ≠ r := by
      rintro rfl
      rw [hempty] at hr
      cases hr
    exact ⟨hne, by rw [hfilled, if_neg hne, hr]⟩
  refine ⟨hs.run, hs.loans_eq, fun g => ?_,
    List.nodup_cons.mpr ⟨hs.not_kept register h hregister, hs.nodup⟩, fun r g hr => ?_,
    fun r r' g hr hr' => hs.register_eq r r' g (hfilled_of r g hr).2 (hfilled_of r' g hr').2,
    fun l hl => List.mem_cons_of_mem _ (hs.kept_of_loan l hl)⟩
  · rw [hs.isLive_iff, exists_filled_iff hempty hfilled, List.mem_cons, or_assoc, or_left_comm]
  · obtain ⟨hne, hr⟩ := hfilled_of r g hr
    rw [List.mem_cons, not_or]
    refine ⟨?_, hs.not_kept r g hr⟩
    rintro rfl
    exact hne (hs.register_eq register r g hregister hr)

theorem fill (hempty : registers[register]? = none)
    (hfilled : ∀ r : String, filled[r]? = if register = r then some h else registers[r]?)
    (hs : Kept { s with registers } loans (h :: kept)) (hloans : ∀ l ∈ loans, l.handle ∈ kept) :
    Kept { s with registers := filled } loans kept := by
  obtain ⟨hh, hnodup⟩ := List.nodup_cons.mp hs.nodup
  have hcases : ∀ (r : String) (g : Handle), filled[r]? = some g →
      register = r ∧ h = g ∨ registers[r]? = some g ∧ g ≠ h ∧ g ∉ kept := by
    intro r g hr
    rw [hfilled] at hr
    split at hr
    · rename_i heq
      exact .inl ⟨heq, Option.some.inj hr⟩
    · have hg := hs.not_kept r g hr
      rw [List.mem_cons, not_or] at hg
      exact .inr ⟨hr, hg⟩
  refine ⟨hs.run, hs.loans_eq, fun g => ?_, hnodup, fun r g hr => ?_, fun r r' g hr hr' => ?_,
    hloans⟩
  · rw [hs.isLive_iff, exists_filled_iff hempty hfilled, List.mem_cons, or_assoc, or_left_comm]
  · rcases hcases r g hr with ⟨-, rfl⟩ | ⟨-, -, hg⟩
    · exact hh
    · exact hg
  · rcases hcases r g hr with ⟨rfl, rfl⟩ | ⟨hr, hg, -⟩
    · rcases hcases r' h hr' with ⟨rfl, -⟩ | ⟨-, hg', -⟩
      · rfl
      · exact absurd rfl hg'
    · rcases hcases r' g hr' with ⟨-, rfl⟩ | ⟨hr', -, -⟩
      · exact absurd rfl hg
      · exact hs.register_eq r r' g hr hr'

end Registers

theorem forget (hs : s.Kept loans kept) (hr : s.registers[register]? = some h) :
    (s.forget register).Kept loans (h :: kept) := by
  have hfilled : ∀ r : String,
      s.registers[r]? = if register = r then some h else (s.registers.erase register)[r]? := by
    intro r
    simp only [Std.TreeMap.getElem?_erase, Std.LawfulEqCmp.compare_eq_iff_eq]
    split
    · rename_i heq
      rw [← heq, hr]
    · rfl
  exact emptied Std.TreeMap.getElem?_erase_self hfilled hs

theorem drop (hs : s.Kept loans (h :: kept)) (hloans : ∀ l ∈ loans, l.handle ∈ kept) :
    (s.perform (.drop h)).1.Kept loans kept := by
  obtain ⟨k, hk⟩ := SharedCells.isLive_iff.mp ((hs.isLive_iff h).mpr (.inl List.mem_cons_self))
  have hlent : s.shared.isLent h = false := by
    rw [isLent, List.any_eq_false, hs.loans_eq]
    rintro l hl hsame
    obtain rfl := of_decide_eq_true hsame
    exact (List.nodup_cons.mp hs.nodup).1 (hloans l hl)
  have hdone : s.perform (.drop h) = ((s.perform (.drop h)).1, .done) :=
    Prod.ext rfl (result_drop hk hlent)
  have hdropped := hs.perform hdone List.mem_cons_self
  rwa [CellAction.deed, Deed.kept, List.erase_cons_head] at hdropped

theorem store (hs : s.Kept loans (h :: kept)) (hloans : ∀ l ∈ loans, l.handle ∈ kept)
    (dest : String) : (s.store dest h).Kept loans kept := by
  have hfilled : ∀ (registers : Std.TreeMap String Handle) (r : String),
      (registers.insert dest h)[r]? = if dest = r then some h else registers[r]? := by
    intro registers r
    simp only [Std.TreeMap.getElem?_insert, Std.LawfulEqCmp.compare_eq_iff_eq]
  rw [State.store]
  cases hold : s.registers[dest]? with
  | none => exact fill hold (hfilled s.registers) hs hloans
  | some old =>
      have hdropped := (hs.forget hold).drop hs.kept_of_loan
      have herased : (s.registers.erase dest)[dest]? = none := Std.TreeMap.getElem?_erase_self
      refine fill herased (fun r => ?_) hdropped hloans
      rw [hfilled, Std.TreeMap.getElem?_erase]
      simp only [Std.LawfulEqCmp.compare_eq_iff_eq]
      split <;> rfl

/-! ### Steps -/

theorem perform_forget (s : State) (register : String) (a : CellAction (List Int64)) :
    (s.forget register).perform a = ((s.perform a).1.forget register, (s.perform a).2) := rfl

theorem use (hs : s.Kept loans kept) {handle : String} (hr : s.registers[handle]? = some h)
    (u : Use) : (s.use handle h u).Kept loans kept := by
  cases u with
  | share dest =>
      rcases hperform : s.perform (.share h) with ⟨after, r⟩
      rw [State.use, hperform]
      cases r with
      | handle g => exact ((hs.perform hperform trivial).store hs.kept_of_loan dest).answer _
      | _ => exact (hs.perform hperform trivial).answer _
  | read =>
      rcases hperform : s.perform (.read h) with ⟨after, r⟩
      rw [State.use, hperform]
      cases r with
      | _ => exact (hs.perform hperform trivial).answer _
  | push item =>
      rcases hperform : s.perform (.write h (· ++ [item])) with ⟨after, r⟩
      rw [State.use, hperform]
      cases r with
      | done => exact ((hs.perform hperform trivial).perform (a := .read h) rfl trivial).answer _
      | _ => exact (hs.perform hperform trivial).answer _
  | describe => exact (hs.perform (a := .read h) rfl trivial).answer _
  | count =>
      rcases hperform : s.perform (.count h) with ⟨after, r⟩
      rw [State.use, hperform]
      cases r with
      | _ => exact (hs.perform hperform trivial).answer _
  | compare other =>
      rw [State.use]
      cases s.registers[other]? with
      | none => exact hs.answer _
      | some g =>
          rcases hperform : s.perform (.compare h g) with ⟨after, r⟩
          simp only [hperform]
          cases r with
          | _ => exact (hs.perform hperform trivial).answer _
  | drop => exact ((hs.forget hr).drop hs.kept_of_loan).answer _
  | take =>
      rcases hperform : s.perform (.take h) with ⟨after, r⟩
      rw [State.use, hperform]
      cases r with
      | taken xs =>
          have hforgot : (s.forget handle).perform (.take h) = (after.forget handle, .taken xs) := by
            rw [perform_forget, hperform]
          have htaken := (hs.forget hr).perform hforgot List.mem_cons_self
          rw [CellAction.deed, Deed.kept, List.erase_cons_head] at htaken
          exact htaken.answer _
      | _ => exact (hs.perform hperform trivial).answer _
  | invalid => exact hs.answer _

theorem beginHold (hs : s.Kept loans kept) {exclusive : Bool} {l : Loan}
    (hbegin : s.beginHold? h exclusive = some (after, l)) :
    after.Kept (l :: loans) (l.handle :: kept) := by
  rcases hshare : s.perform (.share h) with ⟨shared, r⟩
  rw [beginHold?, hshare] at hbegin
  cases r with
  | handle g =>
      have hshared := hs.perform hshare trivial
      rcases hborrow : shared.perform (.borrow ⟨g, exclusive⟩) with ⟨lent, r⟩
      simp only [hborrow] at hbegin
      cases r with
      | done =>
          obtain ⟨rfl, rfl⟩ := Prod.mk.inj (Option.some.inj hbegin)
          exact hshared.perform hborrow List.mem_cons_self
      | _ => cases hbegin
  | _ => cases hbegin

theorem endHold {l : Loan} (hs : s.Kept (l :: loans) (l.handle :: kept))
    (hloans : ∀ l ∈ loans, l.handle ∈ kept) : (s.endHold l).Kept loans kept := by
  -- the borrow ends with this part, and the handle of the hold is dropped
  have hend : ∀ {s : State}, s.Kept (l :: loans) (l.handle :: kept) →
      ((s.perform (.release l)).1.perform (.drop l.handle)).1.Kept loans kept := by
    intro s hs
    have hlive := (hs.isLive_iff l.handle).mpr (.inl List.mem_cons_self)
    obtain ⟨k, hk⟩ := SharedCells.isLive_iff.mp hlive
    have hl : l ∈ s.shared.loans := hs.loans_eq ▸ List.mem_cons_self
    have hdone : s.perform (.release l) = ((s.perform (.release l)).1, .done) :=
      Prod.ext rfl (result_release hl hk)
    have hreleased := hs.perform hdone trivial
    rw [CellAction.deed, Deed.loans, List.erase_cons_head] at hreleased
    exact hreleased.drop hloans
  have hread : ∀ {s : State}, s.Kept (l :: loans) (l.handle :: kept) →
      (s.perform (.readLoan l)).1.Kept (l :: loans) (l.handle :: kept) :=
    fun hs => hs.perform (a := .readLoan l) rfl trivial
  rw [State.endHold]
  cases l.exclusive with
  | false => exact (hend (hread hs)).answer _
  | true =>
      rcases hwrite : s.perform (.writeLoan l.handle (· ++ [-1])) with ⟨written, r⟩
      have hwritten : written.Kept (l :: loans) (l.handle :: kept) := by
        cases r with
        | _ => exact hs.perform hwrite trivial
      simp only [if_true]
      exact (hend (hread hwritten)).answer _

mutual

theorem step {s after : State} {loans : List Loan} {kept : List Handle} (hs : s.Kept loans kept)
    (x : Step) (h : s.step? x = some after) : after.Kept loans kept := by
  cases x with
  | new dest items =>
      obtain rfl := Option.some.inj h
      have hmade := hs.perform (a := .new items) rfl trivial
      exact (hmade.store hs.kept_of_loan dest).answer _
  | use handle u =>
      rw [step?] at h
      cases hr : s.registers[handle]? with
      | none =>
          rw [hr] at h
          obtain rfl := Option.some.inj h
          exact hs.answer _
      | some g =>
          rw [hr] at h
          obtain rfl := Option.some.inj h
          exact hs.use hr u
  | hold handle exclusive body =>
      rw [step?] at h
      cases hr : s.registers[handle]? with
      | none =>
          rw [hr] at h
          obtain rfl := Option.some.inj h
          exact hs.answer _
      | some g =>
          simp only [hr] at h
          rcases hbegin : s.beginHold? g exclusive with _ | ⟨begun, l⟩
          · simp only [hbegin] at h
            cases h
          · simp only [hbegin] at h
            rcases hbody : (begun.answer .holding).steps? body with _ | ended
            · simp only [hbody] at h
              cases h
            · simp only [hbody] at h
              obtain rfl := Option.some.inj h
              exact (steps ((hs.beginHold hbegin).answer _) body hbody).endHold hs.kept_of_loan

theorem steps {s after : State} {loans : List Loan} {kept : List Handle} (hs : s.Kept loans kept)
    (script : List Step) (h : s.steps? script = some after) : after.Kept loans kept := by
  cases script with
  | nil =>
      obtain rfl := Option.some.inj h
      exact hs
  | cons x rest =>
      rw [steps?] at h
      rcases hx : s.step? x with _ | stepped
      · simp only [hx] at h
        cases h
      · simp only [hx] at h
        exact steps (step hs x hx) rest h

end

/-! ### What a script answers -/

theorem ncard_registers (hs : s.Kept loans kept) (k : CellRef) :
    {r : String | (s.registers[r]?).bind s.shared.cell? = some k}.ncard =
      {g | (∃ r : String, s.registers[r]? = some g) ∧ s.shared.cell? g = some k}.ncard := by
  have himage : (fun r : String => s.registers[r]?) ''
      {r | (s.registers[r]?).bind s.shared.cell? = some k} =
      some '' {g | (∃ r : String, s.registers[r]? = some g) ∧ s.shared.cell? g = some k} := by
    ext x
    constructor
    · rintro ⟨r, hr, rfl⟩
      obtain ⟨g, hg, hk⟩ := Option.bind_eq_some_iff.mp hr
      exact ⟨g, ⟨⟨r, hg⟩, hk⟩, hg.symm⟩
    · rintro ⟨g, ⟨⟨r, hr⟩, hk⟩, rfl⟩
      exact ⟨r, Option.bind_eq_some_iff.mpr ⟨g, hr, hk⟩, hr⟩
  have hinjective : Set.InjOn (fun r : String => s.registers[r]?)
      {r | (s.registers[r]?).bind s.shared.cell? = some k} := by
    intro r hr r' _ hsame
    obtain ⟨g, hg, -⟩ := Option.bind_eq_some_iff.mp hr
    exact hs.register_eq r r' g hg (hsame.symm.trans hg)
  rw [← Set.ncard_image_of_injective _ (Option.some_injective Handle), ← himage,
    hinjective.ncard_image]

theorem ncard_kept (hs : s.Kept loans kept) (k : CellRef) :
    {g | g ∈ kept ∧ s.shared.cell? g = some k}.ncard =
      kept.countP fun g => s.shared.cell? g = some k := by
  have hset : {g | g ∈ kept ∧ s.shared.cell? g = some k} =
      ((kept.filter fun g => s.shared.cell? g = some k).toFinset : Set Handle) := by
    ext g
    simp
  rw [hset, Set.ncard_coe_finset, List.toFinset_card_of_nodup (hs.nodup.filter _),
    List.countP_eq_length_filter]

/-- A count is the number of registers and of handles outside through which the cell is reached. -/
theorem use_count (hs : s.Kept loans kept) (hk : s.shared.cell? h = some k) (handle : String) :
    s.use handle h .count = s.answer (.number
      ({r : String | (s.registers[r]?).bind s.shared.cell? = some k}.ncard +
        kept.countP fun g => s.shared.cell? g = some k)) := by
  have hsplit : {g | s.shared.cell? g = some k} =
      {g | (∃ r : String, s.registers[r]? = some g) ∧ s.shared.cell? g = some k} ∪
        {g | g ∈ kept ∧ s.shared.cell? g = some k} := by
    ext g
    rw [Set.mem_union]
    change _ = _ ↔ _ ∧ _ ∨ _ ∧ _
    rw [← or_and_right, or_comm, ← hs.isLive_iff, iff_and_self]
    exact fun hg => SharedCells.isLive_iff.mpr ⟨k, hg⟩
  have hfinite := finite_handles hk
  have hdisjoint : Disjoint
      {g | (∃ r : String, s.registers[r]? = some g) ∧ s.shared.cell? g = some k}
      {g | g ∈ kept ∧ s.shared.cell? g = some k} := by
    rw [Set.disjoint_left]
    rintro g ⟨⟨r, hr⟩, -⟩ ⟨hg, -⟩
    exact hs.not_kept r g hr hg
  rw [hsplit, Set.finite_union] at hfinite
  have hholders : s.shared.cells.count k =
      {r : String | (s.registers[r]?).bind s.shared.cell? = some k}.ncard +
        kept.countP fun g => s.shared.cell? g = some k := by
    rw [hs.sound.count_eq, ← ncard_handles, hsplit,
      Set.ncard_union_eq hdisjoint hfinite.1 hfinite.2, ← hs.ncard_registers, hs.ncard_kept]
  rw [State.use, State.perform, perform_count hk, hholders]

/-- A hold is forbidden exactly by a borrow of the cell that runs, when one of both is exclusive. -/
theorem beginHold?_eq_none_iff (hs : s.Kept loans kept) (hk : s.shared.cell? h = some k)
    (exclusive : Bool) :
    s.beginHold? h exclusive = none ↔ ∃ l ∈ loans, s.shared.cell? l.handle = some k ∧
      (exclusive = true ∨ l.exclusive = true) := by
  have hshare : s.perform (.share h) = ((s.perform (.share h)).1, .handle s.shared.next) :=
    Prod.ext rfl (result_share hk)
  have hresult := hs.sound.result_borrow_shared hk exclusive
  rw [hs.loans_eq] at hresult
  rcases hborrow : (s.perform (.share h)).1.perform (.borrow ⟨s.shared.next, exclusive⟩) with
    ⟨lent, r⟩
  have hanswer := (congrArg Prod.snd hborrow).symm.trans hresult
  rw [beginHold?, hshare]
  simp only [hborrow]
  split_ifs at hanswer with hforbidden
  · obtain rfl : r = .refused := hanswer
    exact ⟨fun _ => hforbidden, fun _ => rfl⟩
  · obtain rfl : r = .done := hanswer
    exact ⟨fun hnone => absurd hnone (Option.some_ne_none _), fun h => absurd h hforbidden⟩

end Kept

/-- A script that comes to its end has done actions on the cells.  No borrow runs any more, and the
handles that are left are those in the registers, each of them in one. -/
theorem registers_of_steps? {script : List Step} (hrun : State.empty.steps? script = some after) :
    (∃ actions, after.shared = (SharedCells.empty.performAll actions).1) ∧
      after.shared.loans = [] ∧
      (∀ h, after.shared.isLive h = true ↔ ∃ r : String, after.registers[r]? = some h) ∧
      ∀ (r r' : String) (h : Handle), after.registers[r]? = some h →
        after.registers[r']? = some h → r = r' := by
  have hafter := Kept.empty.steps script hrun
  refine ⟨hafter.run, hafter.loans_eq, fun h => ?_, hafter.register_eq⟩
  simpa using hafter.isLive_iff h

end CellScript.State

end ScopeChain
