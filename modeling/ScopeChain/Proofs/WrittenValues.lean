import ScopeChain.Proofs.History

/-!
Reading what was written.  After any run the binding of a name in a scope is the last one written
there, and every reader tells that of the nearest binder.
-/

namespace ScopeChain

/-- The binding that a change leaves a name in a scope, when it had the binding `old`. -/
def Change.binding? (s : Scope) (n : Name) (old : Option Binding) : Change → Option Binding
  | none | created _ => old
  | defined t m x => if t = s ∧ m = n then some x else old
  | assigned t m v => if t = s ∧ m = n then old.map fun x => { x with value := v } else old
  | emptied t => if t = s then .none else old

namespace Store.Sound

variable {st : Store} {c : Change}

theorem find?_apply (h : st.Sound) (hc : c.Fits st) (s : Scope) (n : Name) :
    ((c.apply st).bindings s).find? n = c.binding? s n ((st.bindings s).find? n) := by
  cases c with
  | none => rfl
  | created f =>
      change ((st.add f).1.bindings s).find? n = _
      rw [st.bindings_add hc]
      rfl
  | defined t m x =>
      rw [Change.apply, h.find?_bind hc, Change.binding?]
      simp only [eq_comm]
  | assigned t m v =>
      rw [Change.apply, h.find?_update (isLive_of_binds hc), Change.binding?]
      simp only [eq_comm]
  | emptied t =>
      rw [Change.apply, bindings_clear, Change.binding?]
      split
      · rfl
      · rfl

theorem value_apply (h : st.Sound) (hc : c.Fits st) (s : Scope) (n : Name) :
    (((c.apply st).bindings s).find? n).map Binding.value =
      if c.empties s then none
      else (c.value? s n).or (((st.bindings s).find? n).map Binding.value) := by
  rw [h.find?_apply hc]
  cases c with
  | none => rfl
  | created f => rfl
  | defined t m x =>
      by_cases htm : t = s ∧ m = n <;> simp [Change.binding?, Change.empties, Change.value?, htm]
  | assigned t m v =>
      by_cases htm : t = s ∧ m = n
      · obtain ⟨rfl, rfl⟩ := htm
        obtain ⟨x, hx⟩ := h.exists_find?_of_binds hc
        simp [Change.binding?, Change.empties, Change.value?, hx]
      · simp [Change.binding?, Change.empties, Change.value?, htm]
  | emptied t =>
      by_cases hts : t = s <;> simp [Change.binding?, Change.empties, Change.value?, hts]

theorem mutability_apply (h : st.Sound) (hc : c.Fits st) (s : Scope) (n : Name) :
    (((c.apply st).bindings s).find? n).map Binding.mutability =
      if c.empties s then none
      else (c.mutability? s n).or (((st.bindings s).find? n).map Binding.mutability) := by
  rw [h.find?_apply hc]
  cases c with
  | none => rfl
  | created f => rfl
  | defined t m x =>
      by_cases htm : t = s ∧ m = n <;>
        simp [Change.binding?, Change.empties, Change.mutability?, htm]
  | assigned t m v =>
      by_cases htm : t = s ∧ m = n <;>
        simp [Change.binding?, Change.empties, Change.mutability?, htm, Function.comp_def]
  | emptied t =>
      by_cases hts : t = s <;> simp [Change.binding?, Change.empties, Change.mutability?, hts]

end Store.Sound

namespace World

/-- From a moment at which a scope binds nothing the binding of a name in it has the value and the
mutability that the history from then on tells. -/
theorem Sound.find?_performAll {w : World} (h : w.Sound) {s : Scope}
    (hempty : w.store.bindings s = .empty) (run : List Action) (n : Name) :
    let found := ((w.performAll run).1.store.bindings s).find? n
    found.map Binding.value = (w.history run).value? s n ∧
      found.map Binding.mutability = (w.history run).mutability? s n := by
  induction run using List.reverseRecOn with
  | nil =>
      change ((w.store.bindings s).find? n).map _ = _ ∧ ((w.store.bindings s).find? n).map _ = _
      rw [hempty]
      exact ⟨rfl, rfl⟩
  | append_singleton run a ih =>
      have hrun : (w.performAll run).1.Sound := h.performAll run
      have hc := hrun.fits_change a
      simp only [performAll_append, history_append]
      change ((((w.performAll run).1.perform a).1.store.bindings s).find? n).map _ =
          History.value? (w.history run ++ [(w.performAll run).1.change a]) s n ∧
        ((((w.performAll run).1.perform a).1.store.bindings s).find? n).map _ =
          History.mutability? (w.history run ++ [(w.performAll run).1.change a]) s n
      rw [History.value?_concat, History.mutability?_concat, hrun.store_perform a,
        hrun.store.value_apply hc, hrun.store.mutability_apply hc, ih.1, ih.2]
      exact ⟨rfl, rfl⟩

theorem find?_of_run (actions : List Action) (s : Scope) (n : Name) :
    let found := ((World.empty.performAll actions).1.store.bindings s).find? n
    found.map Binding.value = (World.empty.history actions).value? s n ∧
      found.map Binding.mutability = (World.empty.history actions).mutability? s n :=
  sound_empty.find?_performAll rfl actions n

/-- Where a scope does not bind a name, nothing is written to it there. -/
theorem value?_of_unbound {actions : List Action} {t : Scope} {n : Name}
    (ht : (World.empty.performAll actions).1.store.binds t n = false) :
    (World.empty.history actions).value? t n = none := by
  rw [← (find?_of_run actions t n).1, (sound_of_run actions).store.find?_eq_none ht]
  rfl

/-- Every reader tells the binding of the nearest binder, and that is the last one written there.
Nothing stands written nearer, or anywhere along the chain when nothing is found.  A text or a list
is not copied: what is found is a value that an operation was given, with its payload. -/
theorem readers_tell_last_write (actions : List Action) (s : Scope) (n : Name) :
    let w := (World.empty.performAll actions).1
    let history := World.empty.history actions
    match (w.store.chain s).find? fun b => w.store.binds b n with
    | none =>
        w.store.lookup s n = none ∧ w.store.mutability? s n = none ∧
          w.store.contains s n = false ∧ (w.get s n).2 = .error (.undefined n) ∧
          ∀ t ∈ w.store.chain s, history.value? t n = none
    | some b =>
        w.store.contains s n = true ∧
          (∃ nearer further, w.store.chain s = nearer ++ b :: further ∧
            ∀ t ∈ nearer, history.value? t n = none) ∧
          ∃ v m, history.value? b n = some v ∧ history.mutability? b n = some m ∧
            w.store.lookup s n = some v ∧ (w.get s n).2 = .ok v ∧
            w.store.mutability? s n = some m ∧ ∃ a ∈ actions, a.value? = some v := by
  intro w history
  have h : w.Sound := sound_of_run actions
  have hlookup := h.store.lookup_eq s n
  have hmutability := h.store.mutability?_eq s n
  have hcontains := w.store.contains_eq_isSome_binder? s n
  rw [Store.binder?] at hlookup hmutability hcontains
  cases hb : (w.store.chain s).find? fun b => w.store.binds b n with
  | none =>
      rw [hb] at hlookup hmutability hcontains
      refine ⟨hlookup, hmutability, hcontains, by rw [get_of_unbound hlookup], fun t ht => ?_⟩
      exact value?_of_unbound (Bool.eq_false_iff.mpr (List.find?_eq_none.mp hb t ht))
  | some b =>
      rw [hb] at hlookup hmutability hcontains
      obtain ⟨-, nearer, further, hchain, hnearer⟩ := List.find?_eq_some_iff_append.mp hb
      obtain ⟨x, hx⟩ := h.store.exists_find?_of_binds (Store.binds_of_binder? hb)
      obtain ⟨hvalue, hdeclared⟩ := find?_of_run actions b n
      rw [Option.bind_some, hx, Option.map_some] at hlookup hmutability
      have hwritten : history.value? b n = some x.value := by
        rw [← hvalue, hx]
        rfl
      have hgiven : ∃ a ∈ actions, a.value? = some x.value := by
        obtain ⟨c, hc, hv⟩ := History.exists_change hwritten
        exact exists_action_of_written? hc hv
      refine ⟨hcontains, ⟨nearer, further, hchain, fun t ht => ?_⟩, x.value, x.mutability, hwritten,
        ?_, hlookup, ?_, hmutability, hgiven⟩
      · exact value?_of_unbound (by simpa using hnearer t ht)
      · rw [← hdeclared, hx]
        rfl
      · rw [get_of_lookup hlookup]

end World

end ScopeChain
