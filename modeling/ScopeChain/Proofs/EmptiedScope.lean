import ScopeChain.Proofs.Origins

/-!
Emptying a global scope.  The scope is then as new, the scopes inside it no longer find the names
that they had from it, and nothing else of the store is touched.
-/

namespace ScopeChain.Store

/-- The store after the scope `g` was emptied. -/
structure EmptiedAt (before after : Store) (g : Scope) : Prop where
  /-- The frame is that of a new global scope. -/
  frame : after.frame? g = some (.global (before.policy g))
  others : ∀ t, t ≠ g → after.frame? t = before.frame? t
  listing : (after.bindings g).toList = [] ∧ after.names g = [] ∧ (after.bindings g).size = 0
  unbound : ∀ n, after.binds g n = false ∧ after.contains g n = false ∧
    after.lookup g n = none ∧ after.mutability? g n = none
  lookup : ∀ t n, after.lookup t n =
    if before.binder? t n = some g then none else before.lookup t n
  mutability? : ∀ t n, after.mutability? t n =
    if before.binder? t n = some g then none else before.mutability? t n
  define : ∀ n x, ((after.bind g n x).bindings g).toList = [(n, x)]
  /-- An assignment in the tree of `g` that no inner scope takes meets a global scope without
  bindings. -/
  assign : ∀ t n v, before.root t = g →
    before.binder? t n = none ∨ before.binder? t n = some g →
      after.assign t n v =
        if (before.policy g).allowsUndeclared then (after.bind g n ⟨v, .mutable⟩, .created)
        else (after, .undeclared)

theorem binds_clear (st : Store) (g t : Scope) (n : Name) :
    (st.clear g).binds t n = if g = t then false else st.binds t n := by
  rw [binds, bindings_clear]
  split
  · exact Std.TreeMap.contains_emptyc
  · rfl

theorem bindings_clear_self (st : Store) (g : Scope) : (st.clear g).bindings g = .empty := by
  rw [bindings_clear, if_pos rfl]

theorem parent?_clear (st : Store) (g t : Scope) : (st.clear g).parent? t = st.parent? t := by
  rw [clear_eq_rebind, parent?_rebind]

theorem policy_clear (st : Store) (g t : Scope) : (st.clear g).policy t = st.policy t := by
  rw [policy_eq_origin?, policy_eq_origin?, clear_eq_rebind, origin?_rebind]

namespace Sound

variable {st : Store} {g : Scope}

theorem frame?_clear_self (h : st.Sound) (hlive : st.isLive g = true)
    (hg : st.parent? g = none) : (st.clear g).frame? g = some (.global (st.policy g)) := by
  obtain ⟨⟨bindings, parent, depth, policy⟩, hf⟩ := isLive_iff.mp hlive
  have hparent : parent = none := by simpa [parent?, hf] using hg
  have hdepth : depth = 0 := h.global hf hparent
  rw [clear_eq_rebind, frame?_rebind, if_pos rfl, hf, hparent, hdepth, Store.policy, hf]
  rfl

/-- Emptying a global scope takes from the others the names that they had from it. -/
theorem binder?_clear (h : st.Sound) (hg : st.parent? g = none) (t : Scope) (n : Name) :
    (st.clear g).binder? t n = if st.binder? t n = some g then none else st.binder? t n := by
  have hclear : (st.clear g).Sound := h.clear g
  -- The emptied scope can only be the last one of a chain.
  induction t using h.chain_induction with
  | global t hp =>
      rw [hclear.binder?_eq, h.binder?_eq, parent?_clear, hp, binds_clear]
      by_cases hgt : g = t
      · subst hgt
        cases st.binds g n <;> simp
      · rw [if_neg hgt]
        cases st.binds t n <;> simp [Ne.symm hgt]
  | inside t p hp ih =>
      have hgt : g ≠ t := by
        rintro rfl
        cases hg.symm.trans hp
      rw [hclear.binder?_eq, h.binder?_eq, parent?_clear, hp, binds_clear, if_neg hgt]
      cases st.binds t n with
      | true => simp [Ne.symm hgt]
      | false => exact ih

theorem findSome?_clear (h : st.Sound) (hg : st.parent? g = none) {α : Type}
    (part : Binding → α) (t : Scope) (n : Name) :
    (((st.clear g).binder? t n).bind fun b => (((st.clear g).bindings b).find? n).map part) =
      if st.binder? t n = some g then none
      else (st.binder? t n).bind fun b => ((st.bindings b).find? n).map part := by
  rw [h.binder?_clear hg]
  split
  · rfl
  · rename_i hb
    cases hbinder : st.binder? t n with
    | none => rfl
    | some b =>
        have hne : g ≠ b := fun heq => hb (heq ▸ hbinder)
        rw [Option.bind_some, Option.bind_some, bindings_clear, if_neg hne]

theorem binder?_clear_self (h : st.Sound) (hg : st.parent? g = none) (n : Name) :
    (st.clear g).binder? g n = none := by
  rw [(h.clear g).binder?_eq, binds_clear, if_pos rfl, parent?_clear, hg]
  rfl

theorem emptiedAt_clear (h : st.Sound) (hlive : st.isLive g = true) (hg : st.parent? g = none) :
    st.EmptiedAt (st.clear g) g where
  frame := h.frame?_clear_self hlive hg
  others t ht := by rw [clear_eq_rebind, frame?_rebind_of_ne st _ ht.symm]
  listing := by
    rw [names, bindings_clear_self]
    exact ⟨rfl, rfl, rfl⟩
  unbound n := by
    rw [binds_clear, if_pos rfl, contains_eq_isSome_binder?, (h.clear g).lookup_eq,
      (h.clear g).mutability?_eq, h.binder?_clear_self hg]
    exact ⟨rfl, rfl, rfl, rfl⟩
  lookup t n := by rw [(h.clear g).lookup_eq, h.lookup_eq, h.findSome?_clear hg]
  mutability? t n := by
    rw [(h.clear g).mutability?_eq, h.mutability?_eq, h.findSome?_clear hg]
  define n x := by
    have hlive' : (st.clear g).isLive g = true := by rwa [clear_eq_rebind, isLive_rebind]
    rw [bind_eq_rebind, bindings_rebind_self _ _ hlive', bindings_clear_self]
    rfl
  assign t n v ht hb := by
    have hunbound : (st.clear g).binder? t n = none := by
      rw [h.binder?_clear hg]
      rcases hb with hb | hb <;> simp [hb]
    have hroot : (st.clear g).root t = g := (root_congr (st.parent?_clear g) t).trans ht
    rw [(h.clear g).assign_eq, hunbound, hroot, policy_clear]

end Sound

end ScopeChain.Store
