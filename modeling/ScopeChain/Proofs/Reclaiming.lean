import ScopeChain.Proofs.Release

/-!
Reclaiming from two lists and by recursion.  The handles that are still to be dropped wait on a list
of scopes and a list of values, so that no recursion follows the links of the heap.  The work comes
to an end on every heap, and releases what a recursion over the links would release.
-/

namespace ScopeChain

/-- The handles that are still to be dropped, beside the memory. -/
structure Worklist where
  memory : Memory
  scopes : List Scope
  values : List Value

namespace Worklist

/-- One turn: the next value is dropped, or the next scope when no value waits.  An object whose
handle is the only one is released, and what it holds waits. -/
def step : Worklist → Option Worklist
  | ⟨m, scopes, v :: values⟩ =>
      match v.held with
      | .nothing => some ⟨m, scopes, values⟩
      | .scope s => some ⟨m, s :: scopes, values⟩
      | .payload a shown =>
          if m.census.ofPayload a = 1 then
            some ⟨m.release (.payload a), scopes, shown.reverse ++ values⟩
          else some ⟨m.lower (.payload a), scopes, values⟩
  | ⟨m, s :: scopes, []⟩ =>
      if m.census.ofScope s = 1 then
        match m.store.frame? s with
        | none => some ⟨m.lower (.scope s), scopes, []⟩
        | some f =>
            some ⟨m.release (.scope s), f.parent.toList ++ scopes, f.bindings.values.reverse⟩
      else some ⟨m.lower (.scope s), scopes, []⟩
  | ⟨_, [], []⟩ => none

/-- The turns from one worklist on come to an end at another. -/
inductive Ends : Worklist → Worklist → Prop
  | stop {w : Worklist} (done : w.step = none) : Ends w w
  | turn {w w' final : Worklist} (one : w.step = some w') (next : Ends w' final) : Ends w final

end Worklist

/-- Some handles are dropped by recursion, one after the other: the last handle to an object
releases it, and all that it holds is dropped before the next handle is. -/
inductive RecursiveRelease : Memory → List Held → Memory → Prop
  | nil (m : Memory) : RecursiveRelease m [] m
  | nothing {m m' : Memory} {rest : List Held} (next : RecursiveRelease m rest m') :
      RecursiveRelease m (.nothing :: rest) m'
  | shared {m m' : Memory} {h : Held} {x : Object} {rest : List Held} (leads : h.object? = some x)
      (count : m.census.count x ≠ 1) (next : RecursiveRelease (m.lower x) rest m') :
      RecursiveRelease m (h :: rest) m'
  | last {m m₁ m' : Memory} {h : Held} {x : Object} {rest : List Held} (leads : h.object? = some x)
      (count : m.census.count x = 1)
      (inner : RecursiveRelease (m.release x) (m.store.kept h) m₁)
      (next : RecursiveRelease m₁ rest m') : RecursiveRelease m (h :: rest) m'

variable {st : Store} {c : Census} {items : Allocation → List Value} {outside held : List Held}

/-! ### The recursion -/

/-- The recursion comes to an end on every heap. -/
theorem exists_recursiveRelease (m : Memory) (handles : List Held) :
    ∃ m', RecursiveRelease m handles m' ∧ m'.census.total ≤ m.census.total := by
  match handles with
  | [] => exact ⟨m, .nil m, Nat.le_refl _⟩
  | h :: rest =>
      cases hx : h.object? with
      | none =>
          cases h with
          | nothing =>
              obtain ⟨m', hnext, hle⟩ := exists_recursiveRelease m rest
              exact ⟨m', .nothing hnext, hle⟩
          | scope s => exact absurd hx (by simp [Held.object?])
          | payload a shown => exact absurd hx (by simp [Held.object?])
      | some x =>
          by_cases hlast : m.census.count x = 1
          · have hlt : (m.release x).census.total < m.census.total :=
              Census.total_drop_lt (by omega)
            obtain ⟨m₁, hinner, hle₁⟩ := exists_recursiveRelease (m.release x) (m.store.kept h)
            obtain ⟨m', hnext, hle⟩ := exists_recursiveRelease m₁ rest
            exact ⟨m', .last hx hlast hinner hnext, by omega⟩
          · have hle' := m.census.total_drop_le x
            obtain ⟨m', hnext, hle⟩ := exists_recursiveRelease (m.lower x) rest
            exact ⟨m', .shared hx hlast hnext, Nat.le_trans hle hle'⟩
termination_by (m.census.total, handles.length)
decreasing_by
  · exact Prod.Lex.right _ (Nat.lt_succ_self _)
  · exact Prod.Lex.left _ _ hlt
  · exact Prod.Lex.left _ _ (Nat.lt_of_le_of_lt hle₁ hlt)
  · exact Prod.Lex.right' _ hle' (Nat.lt_succ_self _)

/-- What the recursion does is one order of dropping handles; `rest` are the handles that wait
meanwhile. -/
theorem RecursiveRelease.follows {m m' : Memory} {handles : List Held}
    (h : RecursiveRelease m handles m') (hc : st.Counted c items held)
    {rest : List Object}
    (hm : m.Follows st c items outside (handles.filterMap Held.object? ++ rest))
    (ha : ∀ h ∈ handles, h.Agrees items) :
    m'.Follows st c items outside rest ∧
      ∀ t, Tally.Settles (st.contents items) m'.tally rest t →
        Tally.Settles (st.contents items) m.tally (handles.filterMap Held.object? ++ rest) t := by
  induction h generalizing rest with
  | nil m => exact ⟨hm, fun _ h => h⟩
  | nothing _ ih =>
      rw [List.filterMap_cons_none rfl] at hm ⊢
      exact ih hm fun h hh => ha h (List.mem_cons_of_mem _ hh)
  | shared leads count _ ih =>
      rw [List.filterMap_cons_some leads] at hm ⊢
      obtain ⟨hend, hsettles⟩ := ih hm.lower fun h hh => ha h (List.mem_cons_of_mem _ hh)
      refine ⟨hend, fun t ht => .shared (.refl _) count ?_⟩
      have hnext := hsettles t ht
      rwa [Memory.tally_lower] at hnext
  | @last m m₁ m' h x handles leads count _ _ ihinner ihnext =>
      rw [List.filterMap_cons_some leads] at hm ⊢
      have hkept := hm.kept_eq leads (ha h List.mem_cons_self)
      have hmid := hm.release count
      rw [Store.contents, ← hkept] at hmid
      obtain ⟨hm₁, hinner⟩ := ihinner hmid fun h' hh => hc.kept_agrees x h' (hkept ▸ hh)
      obtain ⟨hend, hnext⟩ := ihnext hm₁ fun h' hh => ha h' (List.mem_cons_of_mem _ hh)
      refine ⟨hend, fun t ht => .last (.refl _) count ?_⟩
      have hboth := hinner t (hnext t ht)
      rwa [Memory.tally_release, hkept] at hboth

/-! ### The two lists -/

namespace Worklist

variable {w w' final : Worklist}

/-- The waiting handles, the next one first. -/
def pending (w : Worklist) : List Held :=
  w.values.map Value.held ++ w.scopes.map Held.scope

/-- The objects of the waiting handles. -/
def waiting (w : Worklist) : List Object :=
  w.pending.filterMap Held.object?

/-- What one turn does to the memory and to the waiting handles. -/
inductive Turn (w w' : Worklist) : Prop
  | nothing (memory : w'.memory = w.memory) (pending : w.pending = .nothing :: w'.pending)
  | moved (memory : w'.memory = w.memory) (pending : w.pending.Perm w'.pending)
  | shared (h : Held) (x : Object) (pending : w.pending = h :: w'.pending)
      (leads : h.object? = some x) (count : w.memory.census.count x ≠ 1)
      (memory : w'.memory = w.memory.lower x)
  | last (h : Held) (x : Object) (rest : List Held) (pending : w.pending = h :: rest)
      (leads : h.object? = some x) (count : w.memory.census.count x = 1)
      (memory : w'.memory = w.memory.release x)
      (kept : w'.pending.Perm (w.memory.store.kept h ++ rest))

theorem turn_of_step (hstep : w.step = some w')
    (hlive : ∀ s, w.memory.census.ofScope s ≠ 0 → w.memory.store.isLive s = true) : Turn w w' := by
  match w with
  | ⟨m, scopes, v :: values⟩ =>
      simp only [step] at hstep
      cases hv : v.held with
      | nothing =>
          rw [hv] at hstep
          obtain rfl := Option.some.inj hstep
          exact .nothing rfl (by simp [pending, hv])
      | scope s =>
          rw [hv] at hstep
          obtain rfl := Option.some.inj hstep
          refine .moved rfl ?_
          simp only [pending, List.map_cons, List.cons_append, hv]
          exact List.perm_middle.symm
      | payload a shown =>
          rw [hv] at hstep
          dsimp only at hstep
          split at hstep
          next hlast =>
            obtain rfl := Option.some.inj hstep
            refine .last v.held (.payload a) _ rfl (by rw [hv]; rfl) hlast rfl ?_
            simp only [pending, Store.kept, hv, List.map_append, List.append_assoc]
            exact (shown.reverse_perm.map Value.held).append_right _
          next hshared =>
            obtain rfl := Option.some.inj hstep
            exact .shared v.held (.payload a) rfl (by rw [hv]; rfl) hshared rfl
  | ⟨m, s :: scopes, []⟩ =>
      simp only [step] at hstep
      split at hstep
      next hlast =>
        have hsome : m.store.isLive s = true := hlive s (by rw [hlast]; exact Nat.one_ne_zero)
        cases hf : m.store.frame? s with
        | none => simp [Store.isLive, hf] at hsome
        | some f =>
            rw [hf] at hstep
            obtain rfl := Option.some.inj hstep
            refine .last (.scope s) (.scope s) _ rfl rfl hlast rfl ?_
            simp only [pending, Store.kept, hf, Option.elim, Frame.handles, List.map_append,
              List.append_assoc]
            exact (f.bindings.values.reverse_perm.map Value.held).append_right _
      next hshared =>
        obtain rfl := Option.some.inj hstep
        exact .shared (.scope s) (.scope s) rfl rfl hshared rfl

/-- A turn is one step of dropping handles. -/
theorem Turn.follows (hturn : Turn w w') (hc : st.Counted c items held)
    (hm : w.memory.Follows st c items outside w.waiting) (ha : ∀ h ∈ w.pending, h.Agrees items) :
    w'.memory.Follows st c items outside w'.waiting ∧ (∀ h ∈ w'.pending, h.Agrees items) ∧
      ∀ t, Tally.Settles (st.contents items) w'.memory.tally w'.waiting t →
        Tally.Settles (st.contents items) w.memory.tally w.waiting t := by
  simp only [waiting] at hm ⊢
  cases hturn with
  | nothing hmemory hpending =>
      rw [hmemory]
      rw [hpending] at hm ha ⊢
      exact ⟨hm, fun h hh => ha h (List.mem_cons_of_mem _ hh), fun _ ht => ht⟩
  | moved hmemory hpending =>
      have hperm := hpending.filterMap Held.object?
      rw [hmemory]
      exact ⟨hm.perm hperm, fun h hh => ha h (hpending.mem_iff.mpr hh),
        fun _ ht => ht.perm hperm.symm⟩
  | shared h x hpending leads count hmemory =>
      rw [hpending, List.filterMap_cons_some leads] at hm ⊢
      rw [hpending] at ha
      rw [hmemory, Memory.tally_lower]
      exact ⟨hm.lower, fun h hh => ha h (List.mem_cons_of_mem _ hh),
        fun _ ht => .shared (.refl _) count ht⟩
  | last h x rest hpending leads count hmemory hkept =>
      rw [hpending, List.filterMap_cons_some leads] at hm ⊢
      rw [hpending] at ha
      have hst := hm.kept_eq leads (ha h List.mem_cons_self)
      rw [hst] at hkept
      have hperm := hkept.filterMap Held.object?
      rw [List.filterMap_append] at hperm
      rw [hmemory, Memory.tally_release]
      refine ⟨(hm.release count).perm hperm.symm, ?_,
        fun _ ht => .last (.refl _) count (ht.perm hperm)⟩
      intro h' hh
      rcases List.mem_append.mp (hkept.mem_iff.mp hh) with hh | hh
      · exact hc.kept_agrees x h' hh
      · exact ha h' (List.mem_cons_of_mem _ hh)

theorem pending_eq_nil (hdone : w.step = none) : w.pending = [] := by
  match w with
  | ⟨m, scopes, v :: values⟩ =>
      simp only [step] at hdone
      repeat' split at hdone
      all_goals exact absurd hdone (Option.some_ne_none _)
  | ⟨m, s :: scopes, []⟩ =>
      simp only [step] at hdone
      repeat' split at hdone
      all_goals exact absurd hdone (Option.some_ne_none _)
  | ⟨m, [], []⟩ => rfl

/-- All turns together drop the waiting handles. -/
theorem Ends.follows (hends : Ends w final) (hc : st.Counted c items held)
    (hm : w.memory.Follows st c items outside w.waiting) (ha : ∀ h ∈ w.pending, h.Agrees items) :
    final.memory.Follows st c items outside [] ∧
      Tally.Settles (st.contents items) w.memory.tally w.waiting final.memory.tally := by
  induction hends with
  | stop done =>
      rw [waiting, pending_eq_nil done] at hm ⊢
      exact ⟨hm, .done _⟩
  | turn one _ ih =>
      obtain ⟨hm', ha', hback⟩ := (turn_of_step one fun _ => hm.isLive).follows hc hm ha
      obtain ⟨hfinal, hsettles⟩ := ih hm' ha'
      exact ⟨hfinal, hback _ hsettles⟩

/-- The turns come to an end on every heap, and reclaiming gives the store and the census that they
leave. -/
theorem exists_ends (st : Store) (c : Census) (scopes : List Scope) (values : List Value)
    (released : List Object) :
    ∃ final, Ends ⟨⟨st, c, released⟩, scopes, values⟩ final ∧
      st.reclaim c scopes values = (final.memory.store, final.memory.census) := by
  fun_induction Store.reclaim st c scopes values generalizing released with
  | case1 st c scopes v values hv ih =>
      obtain ⟨final, hends, heq⟩ := ih released
      exact ⟨final, .turn (by simp only [step, hv]) hends, heq⟩
  | case2 st c scopes v values s hv ih =>
      obtain ⟨final, hends, heq⟩ := ih released
      exact ⟨final, .turn (by simp only [step, hv]) hends, heq⟩
  | case3 st c scopes v values a shown hv hzero ih =>
      have hdrop : c.drop (.payload a) = c := Census.drop_of_count_eq_zero hzero
      obtain ⟨final, hends, heq⟩ := ih released
      exact ⟨final, .turn (by simp [step, hv, hzero, Memory.lower, hdrop]) hends, heq⟩
  | case4 st c scopes v values a shown hv hzero hlt hlast ih =>
      obtain ⟨final, hends, heq⟩ := ih (.payload a :: released)
      exact ⟨final, .turn (by simp only [step, hv, if_pos hlast]; rfl) hends, heq⟩
  | case5 st c scopes v values a shown hv hzero hlt hshared ih =>
      obtain ⟨final, hends, heq⟩ := ih released
      exact ⟨final, .turn (by simp only [step, hv, if_neg hshared]; rfl) hends, heq⟩
  | case6 st c => exact ⟨⟨⟨st, c, released⟩, [], []⟩, .stop rfl, rfl⟩
  | case7 st c s scopes hzero ih =>
      have hdrop : c.drop (.scope s) = c := Census.drop_of_count_eq_zero hzero
      obtain ⟨final, hends, heq⟩ := ih released
      exact ⟨final, .turn (by simp [step, hzero, Memory.lower, hdrop]) hends, heq⟩
  | case8 st c s scopes hzero hlt hlast hf ih =>
      obtain ⟨final, hends, heq⟩ := ih released
      exact ⟨final, .turn (by simp only [step, if_pos hlast, hf]; rfl) hends, heq⟩
  | case9 st c s scopes hzero hlt hlast f hf ih =>
      obtain ⟨final, hends, heq⟩ := ih (.scope s :: released)
      exact ⟨final, .turn (by simp only [step, if_pos hlast, hf]; rfl) hends, heq⟩
  | case10 st c s scopes hzero hlt hshared ih =>
      obtain ⟨final, hends, heq⟩ := ih released
      exact ⟨final, .turn (by simp only [step, if_neg hshared]; rfl) hends, heq⟩

end Worklist

/-! ### Both release the same -/

/-- The recursion drops the handles in one order. -/
theorem RecursiveRelease.outcome {m : Memory} {dropped : List Held}
    (h : RecursiveRelease ⟨st, c, []⟩ dropped m) (hc : st.Counted c items (dropped ++ outside)) :
    m.Outcome st c items dropped := by
  have hstart := Memory.Follows.start hc
  rw [← List.append_nil (dropped.filterMap Held.object?)] at hstart
  obtain ⟨hm, hsettles⟩ := h.follows hc hstart fun h hh =>
    hc.outside_agrees h (List.mem_append_left _ hh)
  refine ⟨?_, hm.frames⟩
  have hrun := hsettles _ (.done _)
  rwa [List.append_nil] at hrun

/-- The turns drop the handles in one order. -/
theorem Worklist.Ends.outcome {w final : Worklist} (hends : Ends w final)
    (hstart : w.memory = ⟨st, c, []⟩) (hc : st.Counted c items (w.pending ++ outside)) :
    final.memory.Outcome st c items w.pending := by
  have hm := Memory.Follows.start hc
  rw [← hstart] at hm
  obtain ⟨hfinal, hsettles⟩ := hends.follows hc hm fun h hh =>
    hc.outside_agrees h (List.mem_append_left _ hh)
  refine ⟨?_, hfinal.frames⟩
  rwa [hstart] at hsettles

/-- When the last handle to a scope is dropped, on a heap with cycles or without, the turns of the
two lists come to an end.  No object is released twice, and what is released is what the recursion
over the links releases.  All other scopes keep their frames, the census counts the handles that are
left, and nothing that one of them leads to was released. -/
theorem Store.reclaim_releases_as_recursion {s : Scope}
    (hc : st.Counted c items (.scope s :: outside)) (hlast : c.ofScope s = 1) :
    ∃ final : Worklist, Worklist.Ends ⟨⟨st, c, []⟩, [s], []⟩ final ∧
      st.reclaim c [s] [] = (final.memory.store, final.memory.census) ∧
      final.memory.released.Nodup ∧ .scope s ∈ final.memory.released ∧
      (∃ m, RecursiveRelease ⟨st, c, []⟩ [.scope s] m) ∧
      (∀ m, RecursiveRelease ⟨st, c, []⟩ [.scope s] m →
        final.memory.released.Perm m.released ∧
        (∀ t, final.memory.store.frame? t = m.store.frame? t) ∧
        ∀ x, final.memory.census.count x = m.census.count x) ∧
      (∀ x, x ∈ final.memory.released ↔
        st.has c x = true ∧ final.memory.store.has final.memory.census x = false) ∧
      (∀ t, .scope t ∉ final.memory.released → final.memory.store.frame? t = st.frame? t) ∧
      final.memory.store.Counted final.memory.census items outside ∧
      ∀ h ∈ outside ++ final.memory.store.handles final.memory.census items,
        ∀ x, h.object? = some x → x ∉ final.memory.released := by
  obtain ⟨final, hends, hreclaim⟩ := Worklist.exists_ends st c [s] [] []
  obtain ⟨naive, hnaive, _⟩ := exists_recursiveRelease ⟨st, c, []⟩ [.scope s]
  have hc' : st.Counted c items ([.scope s] ++ outside) := hc
  have hm : final.memory.Outcome st c items [.scope s] := hends.outcome rfl hc'
  refine ⟨final, hends, hreclaim, (hm.exact hc').once, hm.settles.released_of_last hlast,
    ⟨naive, hnaive⟩, ?_, ?_, ?_, hm.counted hc', ?_⟩
  · intro m hrecursive
    have hm' := hrecursive.outcome hc'
    exact ⟨hm.released_perm hm' hc', hm.frame?_eq hm' hc', hm.count_eq hm' hc'⟩
  · intro x
    exact hm.mem_released_iff hc'
  · intro t ht
    rw [hm.frames, if_neg ht]
  · intro h hh x hx
    exact hm.not_released hc' hh hx

/-- A closure without a name or parameters over a scope. -/
def closureOver (s : Scope) : Value :=
  .function ⟨none, [], ⟨1⟩, s⟩

/-- Four scopes: the second binds a closure over the third, and a list with a closure over the
fourth, which binds a closure over itself. -/
def cyclicStore : Store :=
  ⟨#[some (.global .strict),
    some ⟨((Bindings.empty.insert ⟨"f"⟩ ⟨closureOver ⟨2⟩, .mutable⟩).insert ⟨"items"⟩
      ⟨.list ⟨0⟩ [closureOver ⟨3⟩], .immutable⟩), some ⟨0⟩, 1, .strict⟩,
    some ⟨.empty, some ⟨0⟩, 1, .strict⟩,
    some ⟨Bindings.empty.insert ⟨"self"⟩ ⟨closureOver ⟨3⟩, .mutable⟩, some ⟨0⟩, 1, .strict⟩]⟩

/-- The handles in `cyclicStore` with one to the first and one to the second scope outside. -/
def cyclicCensus : Census :=
  ⟨#[4, 1, 1, 2], #[1]⟩

theorem cyclicStore_counted : cyclicStore.Counted cyclicCensus (fun _ => [closureOver ⟨3⟩])
    [.scope ⟨1⟩, .scope ⟨0⟩] where
  counted x := by
    have hhandles : ([Held.scope ⟨1⟩, .scope ⟨0⟩] ++
        cyclicStore.handles cyclicCensus fun _ => [closureOver ⟨3⟩]).filterMap Held.object? =
      [.scope ⟨1⟩, .scope ⟨0⟩, .scope ⟨2⟩, .payload ⟨0⟩, .scope ⟨0⟩, .scope ⟨0⟩, .scope ⟨3⟩,
        .scope ⟨0⟩, .scope ⟨3⟩] := by decide
    rw [Held.countTo, hhandles]
    rcases x with ⟨⟨_ | _ | _ | _ | i⟩⟩ | ⟨⟨_ | i⟩⟩
    case scope.succ.succ.succ.succ => simp [Census.count, Census.ofScope, cyclicCensus]
    case payload.succ => simp [Census.count, Census.ofPayload, cyclicCensus]
    all_goals decide
  present s hs := by
    rcases s with ⟨_ | _ | _ | _ | i⟩
    case succ.succ.succ.succ => exact absurd (by simp [Census.ofScope, cyclicCensus]) hs
    all_goals rfl
  outside_agrees := by simp [Held.Agrees]
  kept_agrees x := by
    rcases x with ⟨⟨_ | _ | _ | _ | i⟩⟩ | a
    · change ∀ h ∈ [], Held.Agrees _ h
      simp
    · change ∀ h ∈ [.scope ⟨2⟩, .payload ⟨0⟩ [closureOver ⟨3⟩], .scope ⟨0⟩], Held.Agrees _ h
      simp [Held.Agrees]
    · change ∀ h ∈ [.scope ⟨0⟩], Held.Agrees _ h
      simp [Held.Agrees]
    · change ∀ h ∈ [.scope ⟨3⟩, .scope ⟨0⟩], Held.Agrees _ h
      simp [Held.Agrees]
    · have hkept : cyclicStore.kept (.scope ⟨i + 4⟩) = [] := by
        simp [Store.kept, Store.frame?, cyclicStore]
      simp [Object.handle, hkept]
    · change ∀ h ∈ [.scope ⟨3⟩], Held.Agrees _ h
      simp [Held.Agrees]

/-- The handle to the second scope is dropped: it is released, and a scope that is still held
outside is not, whatever cycles there are. -/
theorem reclaim_beside_cycle :
    cyclicCensus.ofScope ⟨1⟩ = 1 ∧
      ∃ final : Worklist, Worklist.Ends ⟨⟨cyclicStore, cyclicCensus, []⟩, [⟨1⟩], []⟩ final ∧
        .scope ⟨1⟩ ∈ final.memory.released ∧ .scope ⟨0⟩ ∉ final.memory.released ∧
        final.memory.store.Counted final.memory.census (fun _ => [closureOver ⟨3⟩])
          [.scope ⟨0⟩] := by
  have hlast : cyclicCensus.ofScope ⟨1⟩ = 1 := by decide
  obtain ⟨final, hends, _, _, hreleased, _, _, _, _, hcounted, hheld⟩ :=
    Store.reclaim_releases_as_recursion cyclicStore_counted hlast
  have hkept : Object.scope ⟨0⟩ ∉ final.memory.released :=
    hheld (.scope ⟨0⟩) (List.mem_append_left _ List.mem_cons_self) _ rfl
  exact ⟨hlast, final, hends, hreleased, hkept, hcounted⟩

end ScopeChain
