import ScopeChain.Proofs.History

/-!
What is settled when a scope is created: the scope around it, its depth and its policy.  No operation
changes them, so a chain once built leads through the same scopes for good.
-/

namespace ScopeChain

/-- The frame as it was when its scope was created. -/
def Frame.origin (f : Frame) : Frame :=
  { f with bindings := .empty }

/-- The scope whose bindings the change is about. -/
def Change.scope? : Change → Option Scope
  | defined s _ _ | assigned s _ _ | emptied s => some s
  | none | created _ => .none

namespace Store

/-- The frame that the scope was created with. -/
def origin? (st : Store) (s : Scope) : Option Frame :=
  (st.frame? s).map Frame.origin

/-- Every scope of the first store is in the second one with the frame that it was created with. -/
def Grows (before after : Store) : Prop :=
  ∀ s f, before.origin? s = some f → after.origin? s = some f

section origin

variable (st : Store) (s : Scope)

theorem isLive_eq_isSome_origin? : st.isLive s = (st.origin? s).isSome := by
  rw [isLive, origin?, Option.isSome_map]

theorem parent?_eq_bind_origin? : st.parent? s = (st.origin? s).bind Frame.parent := by
  rw [parent?, origin?]
  cases st.frame? s <;> rfl

theorem depth_eq_origin? : st.depth s = (st.origin? s).elim 0 Frame.depth := by
  rw [depth, origin?]
  cases st.frame? s <;> rfl

theorem policy_eq_origin? : st.policy s = (st.origin? s).elim .createGlobal Frame.policy := by
  rw [policy, origin?]
  cases st.frame? s <;> rfl

end origin

@[simp] theorem origin?_rebind (st : Store) (s t : Scope) (change : Bindings → Bindings) :
    (st.rebind s change).origin? t = st.origin? t := by
  rw [origin?, origin?, frame?_rebind]
  split
  · rw [Option.map_map]
    rfl
  · rfl

theorem origin?_add (st : Store) (f : Frame) (t : Scope) :
    (st.add f).1.origin? t = if t = st.next then some f.origin else st.origin? t := by
  rw [origin?, origin?, frame?_add]
  split <;> rfl

theorem creation_eq_origin? (st : Store) (s : Scope) :
    st.creation s = match st.origin? s with
      | some f => .created (f.inside s)
      | none => .none := by
  rw [creation, origin?]
  cases st.frame? s <;> rfl

@[simp] theorem next_rebind (st : Store) (s : Scope) (change : Bindings → Bindings) :
    (st.rebind s change).next = st.next := by
  simp [next, rebind, update]

@[simp] theorem next_add (st : Store) (f : Frame) : (st.add f).1.next = ⟨st.next.index + 1⟩ := by
  simp [next, add]

theorem isLive_next (st : Store) : st.isLive st.next = false := by
  rw [isLive, frame?_next]
  rfl

theorem ne_next {st : Store} {s : Scope} (hs : st.isLive s = true) : s ≠ st.next := by
  rintro rfl
  cases st.isLive_next.symm.trans hs

/-- A change makes nothing, or a scope, or it is about the bindings of one scope. -/
theorem apply_cases (st : Store) (c : Change) :
    c = .none ∨ (∃ f, c = .created f) ∨
      ∃ s change, c.scope? = some s ∧ c.apply st = st.rebind s change := by
  cases c with
  | none => exact .inl rfl
  | created f => exact .inr (.inl ⟨f, rfl⟩)
  | defined s n x => exact .inr (.inr ⟨s, fun b => b.insert n x, rfl, rfl⟩)
  | assigned s n v => exact .inr (.inr ⟨s, fun b => b.assign n v, rfl, rfl⟩)
  | emptied s => exact .inr (.inr ⟨s, fun _ => .empty, rfl, rfl⟩)

/-- A change that creates no scope keeps every scope with its link, its depth and its policy. -/
theorem origin?_apply {st : Store} {c : Change} (hc : ∀ f, c ≠ .created f) :
    (c.apply st).next = st.next ∧ ∀ s, (c.apply st).origin? s = st.origin? s := by
  rcases st.apply_cases c with rfl | ⟨f, rfl⟩ | ⟨t, change, -, happly⟩
  · exact ⟨rfl, fun _ => rfl⟩
  · exact absurd rfl (hc f)
  · rw [happly]
    exact ⟨st.next_rebind t change, fun s => st.origin?_rebind t s change⟩

theorem frame?_apply {st : Store} {c : Change} {s : Scope} (hs : st.isLive s = true)
    (hc : c.scope? ≠ some s) : (c.apply st).frame? s = st.frame? s := by
  rcases st.apply_cases c with rfl | ⟨f, rfl⟩ | ⟨t, change, ht, happly⟩
  · rfl
  · rw [Change.apply, frame?_add, if_neg (ne_next hs)]
  · rw [happly]
    apply frame?_rebind_of_ne
    rintro rfl
    exact hc ht

theorem created_of_isLive_apply {st : Store} {c : Change} {s : Scope} (hs : st.isLive s = false)
    (hafter : (c.apply st).isLive s = true) : ∃ f, c = .created f ∧ s = st.next := by
  rcases st.apply_cases c with rfl | ⟨f, rfl⟩ | ⟨t, change, -, happly⟩
  · cases hs.symm.trans hafter
  · rw [Change.apply, isLive, frame?_add] at hafter
    split at hafter
    · rename_i hnext
      exact ⟨f, rfl, hnext⟩
    · cases hs.symm.trans hafter
  · rw [happly, isLive_rebind] at hafter
    cases hs.symm.trans hafter

namespace Sound

variable {st : Store}

theorem self_mem_chain (h : st.Sound) (s : Scope) : s ∈ st.chain s := by
  rw [h.chain_eq]
  split <;> exact List.mem_cons_self

theorem root_mem_chain (h : st.Sound) (s : Scope) : st.root s ∈ st.chain s := by
  induction s using h.chain_induction with
  | global s hp =>
      rw [h.root_eq, hp]
      exact h.self_mem_chain s
  | inside s p hp ih =>
      rw [h.root_eq, h.chain_eq, hp]
      exact List.mem_cons_of_mem _ ih

end Sound

theorem root_congr {st st' : Store} (h : ∀ t, st'.parent? t = st.parent? t) (s : Scope) :
    st'.root s = st.root s := by
  have hfuel : ∀ fuel s, st'.rootFrom fuel s = st.rootFrom fuel s := by
    intro fuel
    induction fuel with
    | zero => exact fun _ => rfl
    | succ fuel ih =>
        intro s
        simp only [rootFrom, h, ih]
  exact hfuel _ s

namespace Grows

variable {st st' st'' : Store}

theorem refl (st : Store) : st.Grows st :=
  fun _ _ h => h

theorem trans (h : st.Grows st') (h' : st'.Grows st'') : st.Grows st'' :=
  fun s f hf => h' s f (h s f hf)

theorem apply (st : Store) (c : Change) : st.Grows (c.apply st) := by
  intro s f hf
  rcases st.apply_cases c with rfl | ⟨g, rfl⟩ | ⟨t, change, -, happly⟩
  · exact hf
  · have hs : st.isLive s = true := by
      rw [isLive_eq_isSome_origin?, hf]
      rfl
    rw [Change.apply, origin?_add, if_neg (ne_next hs), hf]
  · rw [happly, origin?_rebind, hf]

theorem isLive (h : st.Grows st') {s : Scope} (hs : st.isLive s = true) : st'.isLive s = true := by
  rw [isLive_eq_isSome_origin?, Option.isSome_iff_exists] at hs ⊢
  obtain ⟨f, hf⟩ := hs
  exact ⟨f, h s f hf⟩

theorem isLive_next (h : st.Grows st') : st.isLive st'.next = false := by
  by_contra hlive
  exact ne_next (h.isLive (Bool.of_not_eq_false hlive)) rfl

theorem frame? (h : st.Grows st') {s : Scope} {f : Frame} (hf : st.frame? s = some f) :
    ∃ g, st'.frame? s = some g ∧ g.parent = f.parent ∧ g.depth = f.depth ∧
      g.policy = f.policy := by
  have horigin : st'.origin? s = some f.origin := h s f.origin (by rw [origin?, hf]; rfl)
  obtain ⟨g, hg, heq⟩ := Option.map_eq_some_iff.mp horigin
  simp only [Frame.origin, Frame.mk.injEq, true_and] at heq
  exact ⟨g, hg, heq⟩

theorem parent? (h : st.Grows st') {s : Scope} (hs : st.isLive s = true) :
    st'.parent? s = st.parent? s := by
  rw [isLive_eq_isSome_origin?, Option.isSome_iff_exists] at hs
  obtain ⟨f, hf⟩ := hs
  rw [parent?_eq_bind_origin?, parent?_eq_bind_origin?, h s f hf, hf]

theorem chain (h : st.Grows st') (hst : st.Sound) (hst' : st'.Sound) {s : Scope}
    (hs : st.isLive s = true) : st'.chain s = st.chain s := by
  induction s using hst.chain_induction with
  | global s hp => rw [hst'.chain_eq, hst.chain_eq, h.parent? hs, hp]
  | inside s p hp ih =>
      rw [hst'.chain_eq, hst.chain_eq, h.parent? hs, hp]
      exact congrArg _ (ih (hst.isLive_parent? hp))

theorem root (h : st.Grows st') (hst : st.Sound) (hst' : st'.Sound) {s : Scope}
    (hs : st.isLive s = true) : st'.root s = st.root s := by
  induction s using hst.chain_induction with
  | global s hp => rw [hst'.root_eq, hst.root_eq, h.parent? hs, hp]
  | inside s p hp ih =>
      rw [hst'.root_eq, hst.root_eq, h.parent? hs, hp]
      exact ih (hst.isLive_parent? hp)

theorem depth (h : st.Grows st') {s : Scope} (hs : st.isLive s = true) :
    st'.depth s = st.depth s := by
  rw [isLive_eq_isSome_origin?, Option.isSome_iff_exists] at hs
  obtain ⟨f, hf⟩ := hs
  rw [depth_eq_origin?, depth_eq_origin?, h s f hf, hf]

theorem policy (h : st.Grows st') {s : Scope} (hs : st.isLive s = true) :
    st'.policy s = st.policy s := by
  rw [isLive_eq_isSome_origin?, Option.isSome_iff_exists] at hs
  obtain ⟨f, hf⟩ := hs
  rw [policy_eq_origin?, policy_eq_origin?, h s f hf, hf]

end Grows

end Store

namespace World

theorem scope?_creation (st : Store) (s : Scope) : (st.creation s).scope? = none := by
  unfold Store.creation
  split <;> rfl

theorem scope?_entry (w : World) (e : EnvironmentId) (place : Place) :
    (w.entry e place).scope? = none := by
  unfold entry
  split
  · split
    · rfl
    · exact scope?_creation _ _
  · rfl

end World

namespace World.Sound

variable {w : World}

theorem grows_perform (h : w.Sound) (a : Action) : w.store.Grows (w.perform a).1.store := by
  rw [h.store_perform a]
  exact .apply w.store (w.change a)

/-- No run changes the link, the depth or the policy of a scope. -/
theorem grows_performAll (h : w.Sound) (actions : List Action) :
    w.store.Grows (w.performAll actions).1.store := by
  induction actions generalizing w with
  | nil => exact .refl _
  | cons a rest ih => exact (h.grows_perform a).trans (ih (h.perform a))

end World.Sound

end ScopeChain
