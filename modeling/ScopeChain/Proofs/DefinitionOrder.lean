import ScopeChain.Proofs.History

/-!
The order of definitions.  After any run a scope lists its names in the order in which they were
first defined there since it was emptied for the last time.  A later definition or assignment of a
name moves nothing, so that until a scope is emptied its names only grow at the end.
-/

namespace ScopeChain

namespace Store.Sound

variable {st : Store} {c : Change}

theorem names_apply (h : st.Sound) (hc : c.Fits st) (s : Scope) :
    (c.apply st).names s = c.names s (st.names s) := by
  unfold Store.names Change.names
  cases c with
  | none => rfl
  | created f =>
      change ((st.add f).1.bindings s).names = _
      rw [st.bindings_add hc]
      rfl
  | defined t m x =>
      rw [Change.apply, bind_eq_rebind]
      by_cases hts : t = s
      · subst hts
        rw [bindings_rebind_self st _ hc, (h.faithful_bindings t).names_insert]
        simp [Change.empties, Change.name?]
      · rw [bindings_rebind_of_ne st _ hts]
        simp [Change.empties, Change.name?, hts]
  | assigned t m v =>
      rw [Change.apply]
      by_cases hts : t = s
      · subst hts
        rw [bindings_rebind_self st _ (isLive_of_binds hc), (h.faithful_bindings t).names_assign]
        simp [Change.empties, Change.name?]
      · rw [bindings_rebind_of_ne st _ hts]
        simp [Change.empties, Change.name?]
  | emptied t =>
      rw [Change.apply, bindings_clear]
      by_cases hts : t = s
      · rw [if_pos hts]
        simp only [Change.empties, hts, decide_true, if_true]
        rfl
      · simp [Change.empties, Change.name?, hts]

theorem names_prefix_apply (h : st.Sound) (hc : c.Fits st) {s : Scope}
    (hkept : c.empties s = false) : st.names s <+: (c.apply st).names s := by
  rw [h.names_apply hc, Change.names, hkept]
  simp only [Bool.false_eq_true, if_false]
  split
  · split
    · exact List.prefix_refl _
    · exact List.prefix_append _ _
  · exact List.prefix_refl _

end Store.Sound

namespace World

/-- From a moment at which a scope binds nothing its names are told by what happens from then on. -/
theorem Sound.names_performAll {w : World} (h : w.Sound) {s : Scope}
    (hempty : w.store.bindings s = .empty) (run : List Action) :
    (w.performAll run).1.store.names s = (w.history run).names s := by
  induction run using List.reverseRecOn with
  | nil =>
      change (w.store.bindings s).names = _
      rw [hempty]
      rfl
  | append_singleton run a ih =>
      have hrun : (w.performAll run).1.Sound := h.performAll run
      rw [performAll_append, history_append]
      change ((w.performAll run).1.perform a).1.store.names s =
        History.names (w.history run ++ [(w.performAll run).1.change a]) s
      rw [History.names_concat, hrun.store_perform a, hrun.store.names_apply (hrun.fits_change a), ih]

theorem names_of_run (actions : List Action) (s : Scope) :
    (World.empty.performAll actions).1.store.names s = (World.empty.history actions).names s :=
  sound_empty.names_performAll rfl actions

theorem Sound.names_prefix {w : World} (h : w.Sound) (actions : List Action) {s : Scope}
    (hkept : ∀ c ∈ w.history actions, c.empties s = false) :
    w.store.names s <+: (w.performAll actions).1.store.names s := by
  induction actions generalizing w with
  | nil => exact List.prefix_refl _
  | cons a rest ih =>
      have hstep : w.store.names s <+: (w.perform a).1.store.names s := by
        rw [h.store_perform a]
        exact h.store.names_prefix_apply (h.fits_change a) (hkept _ (List.mem_cons_self ..))
      exact hstep.trans (ih (h.perform a) fun c hc => hkept c (List.mem_cons_of_mem _ hc))

theorem Sound.bindings_of_empties {w : World} (h : w.Sound) {a : Action} {s : Scope}
    (ha : (w.change a).empties s = true) : (w.perform a).1.store.bindings s = .empty := by
  rw [h.store_perform a]
  cases hc : w.change a with
  | emptied t =>
      rw [hc] at ha
      rw [Change.apply, Store.bindings_clear, if_pos (of_decide_eq_true ha)]
  | _ =>
      rw [hc] at ha
      cases ha

/-- After any run the bindings of a scope are an insertion-ordered map: its index and its slots
describe each other, and its names stand in the order of their first definition since the scope was
emptied.  They keep their places until it is emptied again, and then none is left. -/
theorem bindings_in_definition_order (actions : List Action) (s : Scope) :
    let w := (World.empty.performAll actions).1
    let b := w.store.bindings s
    (∀ (n : Name) (i : Nat), b.index[n]? = some i ↔ ∃ x, b.slots[i]? = some (n, x)) ∧
      (w.store.names s).Nodup ∧
      (∀ n, (w.store.binds s n = true ↔ n ∈ w.store.names s) ∧
        (n ∈ w.store.names s ↔ ∃ x, (n, x) ∈ b.toList)) ∧
      b.size = (w.store.names s).length ∧ b.size = b.toList.length ∧
      w.store.names s = b.toList.map Prod.fst ∧
      w.store.names s = (World.empty.history actions).names s ∧
      (∀ later, (∀ c ∈ w.history later, c.empties s = false) →
        w.store.names s <+: (w.performAll later).1.store.names s) ∧
      ∀ a, (w.change a).empties s = true → (w.perform a).1.store.bindings s = .empty := by
  intro w b
  have h : w.Sound := sound_of_run actions
  have hb : b.Faithful := h.store.faithful_bindings s
  refine ⟨hb, hb.nodup_names, fun n => ⟨hb.contains_iff_mem_names, ?_⟩, b.length_names.symm,
    b.length_toList.symm, rfl, names_of_run actions s, fun later => h.names_prefix later,
    fun a => h.bindings_of_empties⟩
  change n ∈ b.toList.map Prod.fst ↔ _
  simp

end World

end ScopeChain
