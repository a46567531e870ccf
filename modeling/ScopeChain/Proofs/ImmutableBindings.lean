import ScopeChain.Proofs.Assignment
import ScopeChain.Proofs.Moments
import ScopeChain.Proofs.WrittenValues

/-!
Immutable bindings over runs.  An assignment never writes to one, so only a definition in the same
scope or the end of a run can take it away.  A mutable binding nearer to where the name is assigned
hides it and is assigned in its place.
-/

namespace ScopeChain.World

variable {w : World} {s t b : Scope} {n : Name} {v : Value} {x : Binding}

/-! ### One operation -/

theorem Sound.assign_of_immutable (h : w.Sound) (hb : w.store.binder? t n = some b)
    (hx : (w.store.bindings b).find? n = some x) (hm : x.mutability = .immutable) (v : Value) :
    w.assign t n v = (w, .error (.immutable n)) := by
  have hassign : w.store.assign t n v = (w.store, .immutable) := by
    rw [h.store.assign_eq, hb]
    simp [hx, hm, Mutability.isMutable]
  simp only [World.assign, hassign]

theorem Sound.assign_of_mutable (h : w.Sound) (hb : w.store.binder? t n = some b)
    (hx : (w.store.bindings b).find? n = some x) (hm : x.mutability = .mutable) (v : Value) :
    w.assign t n v = ({ w with store := w.store.rebind b fun bs => bs.assign n v }, .ok ()) := by
  have hassign : w.store.assign t n v = (w.store.rebind b fun bs => bs.assign n v, .updated) := by
    rw [h.store.assign_eq, hb]
    simp [hx, hm, Mutability.isMutable]
  simp only [World.assign, hassign]

theorem Sound.find?_perform_of_immutable (h : w.Sound) {a : Action}
    (hx : (w.store.bindings s).find? n = some ⟨v, .immutable⟩) (hdefines : ¬w.Defines a s n)
    (hends : ¬w.EndsRunOf a s) :
    ((w.perform a).1.store.bindings s).find? n = some ⟨v, .immutable⟩ := by
  rw [h.store_perform a, h.store.find?_apply (h.fits_change a), hx]
  -- Each reason for a change of this binding is ruled out: an assignment needs a mutable binding or
  -- none, and the others are excluded by the hypotheses.
  have hcaused := h.caused a
  generalize w.change a = c at hcaused
  cases hcaused with
  | none => rfl
  | created => rfl
  | defined ha hs =>
      refine if_neg ?_
      rintro ⟨rfl, rfl⟩
      exact hdefines ⟨_, _, _, ha, hs⟩
  | unbound ha ht hb =>
      refine if_neg ?_
      rintro ⟨rfl, rfl⟩
      have hfree := h.store.find?_eq_none (h.store.binds_root_eq_false hb)
      cases hfree.symm.trans hx
  | assigned ha ht hb hfound hm =>
      refine if_neg ?_
      rintro ⟨rfl, rfl⟩
      obtain rfl := Option.some.inj (hfound.symm.trans hx)
      cases hm
  | emptied ha he =>
      refine if_neg ?_
      rintro rfl
      exact hends ⟨_, _, ha, he, rfl⟩

/-! ### Runs -/

theorem Sound.find?_performAll_of_immutable (h : w.Sound) {run : List Action}
    (hx : (w.store.bindings s).find? n = some ⟨v, .immutable⟩)
    (hdefines : ¬w.Sometime run fun now a _ => now.Defines a s n) (hends : w.NeverEmpties run s) :
    ((w.performAll run).1.store.bindings s).find? n = some ⟨v, .immutable⟩ := by
  induction run generalizing w with
  | nil => exact hx
  | cons a rest ih =>
      rw [sometime_cons, not_or] at hdefines
      rw [NeverEmpties, sometime_cons, not_or] at hends
      exact ih (h.perform a) (h.find?_perform_of_immutable hx hdefines.1 hends.1) hdefines.2 hends.2

/-- A name keeps its place among the names of a scope that is not emptied. -/
theorem Sound.idxOf_names (h : w.Sound) (hw : w.Separate) {run : List Action}
    (hn : n ∈ w.store.names s) (hends : w.NeverEmpties run s) :
    ((w.performAll run).1.store.names s).idxOf n = (w.store.names s).idxOf n := by
  obtain ⟨added, hadded⟩ := h.names_prefix run (h.empties_history hw hends)
  rw [← hadded, List.idxOf_append_of_mem hn]

/-- For as long as the scope does not define the name again and is not emptied, an immutable binding
keeps its value and its place.  Every assignment that finds it is rejected and changes nothing, and
one that finds a mutable binding of the name elsewhere leaves the scope as it is. -/
theorem immutable_bindings_kept (actions later : List Action) {s : Scope} {n : Name} {v : Value}
    (hbound : ((World.empty.performAll actions).1.store.bindings s).find? n =
      some ⟨v, .immutable⟩)
    (hdefines : ¬(World.empty.performAll actions).1.Sometime later fun now a _ => now.Defines a s n)
    (hends : (World.empty.performAll actions).1.NeverEmpties later s) :
    let w := (World.empty.performAll actions).1
    ∀ part, part <+: later →
      let now := (w.performAll part).1
      (now.store.bindings s).find? n = some ⟨v, .immutable⟩ ∧
        (now.store.names s).idxOf n = (w.store.names s).idxOf n ∧
        (∀ place t v', now.scopeAt? place = some t → now.store.binder? t n = some s →
          now.perform (.assign place n v') = (now, .failed (.immutable n))) ∧
        ∀ place t v' b x, now.scopeAt? place = some t → now.store.binder? t n = some b → b ≠ s →
          (now.store.bindings b).find? n = some x → x.mutability = .mutable →
          let after := now.perform (.assign place n v')
          after.2 = .done ∧ after.1.store.lookup t n = some v' ∧
            after.1.store.frame? s = now.store.frame? s := by
  intro w part hpart now
  have hw : w.Sound := sound_of_run actions
  have h : now.Sound := hw.performAll part
  have hends' : w.NeverEmpties part s := fun hsome => hends (hsome.of_part hpart)
  have hkept : (now.store.bindings s).find? n = some ⟨v, .immutable⟩ :=
    hw.find?_performAll_of_immutable hbound (fun hsome => hdefines (hsome.of_part hpart)) hends'
  have hmem : n ∈ w.store.names s := by
    have hb := hw.store.faithful_bindings s
    rw [Store.names, ← hb.contains_iff_mem_names, hb.contains_eq_isSome_find?, hbound]
    rfl
  refine ⟨hkept, hw.idxOf_names (separate_of_run actions) hmem hends', ?_, ?_⟩
  · intro place t v' ht hb
    simp only [perform, performAt, ht, h.assign_of_immutable hb hkept rfl]
  · intro place t v' b x ht hb hne hx hm
    simp only [perform, performAt, ht, h.assign_of_mutable hb hx hm]
    refine ⟨trivial, ?_, Store.frame?_rebind_of_ne _ _ hne⟩
    rw [h.store.lookup_update n (Store.binds_of_binder? hb), if_pos ⟨rfl, hb⟩]

/-- A block assigns to an immutable variable of its global scope in vain, until it has a mutable one of
the same name. -/
theorem immutable_kept_in_block :
    let w := (World.empty.performAll [.newEnvironment {},
      .define (.global ⟨0⟩) ⟨"x"⟩ .void .immutable]).1
    let inner := (w.performAll [.enterBlock ⟨0⟩]).1
    let now := (w.performAll [.enterBlock ⟨0⟩, .define (.current ⟨0⟩) ⟨"x"⟩ .void .mutable]).1
    inner.perform (.assign (.current ⟨0⟩) ⟨"x"⟩ (.bool true)) = (inner, .failed (.immutable ⟨"x"⟩)) ∧
      (now.perform (.assign (.current ⟨0⟩) ⟨"x"⟩ (.bool true))).2 = .done ∧
      (now.store.bindings ⟨0⟩).find? ⟨"x"⟩ = some ⟨.void, .immutable⟩ := by
  intro w inner now
  have hdefines : ¬w.Sometime [.enterBlock ⟨0⟩, .define (.current ⟨0⟩) ⟨"x"⟩ .void .mutable]
      fun now a _ => now.Defines a ⟨0⟩ ⟨"x"⟩ := by
    rw [sometime_cons, sometime_cons]
    rintro (⟨_, _, _, ha, -⟩ | ⟨_, _, _, ha, hs⟩ | hnil)
    · cases ha
    · cases ha
      exact absurd hs (by decide)
    · exact not_sometime_nil _ _ hnil
  have hends : w.NeverEmpties [.enterBlock ⟨0⟩, .define (.current ⟨0⟩) ⟨"x"⟩ .void .mutable] ⟨0⟩ := by
    rw [NeverEmpties, sometime_cons, sometime_cons]
    rintro (⟨_, _, ha | ha, -⟩ | ⟨_, _, ha | ha, -⟩ | hnil)
    any_goals cases ha
    exact not_sometime_nil _ _ hnil
  have hkept := immutable_bindings_kept _ _ rfl hdefines hends
  obtain ⟨-, -, hrejected, -⟩ := hkept [.enterBlock ⟨0⟩] (List.prefix_append _ [_])
  obtain ⟨hbound, -, -, hshadow⟩ := hkept _ (List.prefix_refl _)
  refine ⟨hrejected _ ⟨1⟩ _ rfl (by decide), ?_, hbound⟩
  exact (hshadow _ ⟨1⟩ _ ⟨1⟩ ⟨.void, .mutable⟩ rfl (by decide) (by decide) rfl rfl).1

end ScopeChain.World
