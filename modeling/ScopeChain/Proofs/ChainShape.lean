import ScopeChain.Listing
import ScopeChain.Proofs.Origins
import Mathlib.Data.List.Chain
import Mathlib.Logic.Function.Iterate

/-!
The shape of chains.  A chain is the walk along the links to its end: it meets no scope twice, ends
at the one scope of it that nothing is around, and the depths and policies that were noted when its
scopes were created are those of the walk.
-/

namespace ScopeChain.Store

/-- How the chain of a scope lies in the store. -/
structure ChainShape (st : Store) (s : Scope) : Prop where
  first : (st.chain s).head? = some s
  links : (st.chain s).IsChain fun t p => st.parent? t = some p
  last : (st.chain s).getLast? = some (st.root s)
  /-- Following the links `k` times from the scope leads to place `k` of the chain, and nowhere when
  the chain is over. -/
  walk : ∀ k, (fun t => t.bind st.parent?)^[k] (some s) = (st.chain s)[k]?
  nodup : (st.chain s).Nodup
  global : ∀ t ∈ st.chain s, st.parent? t = none ↔ t = st.root s
  policy : ∀ t ∈ st.chain s, st.policy t = st.policy (st.root s)
  isGlobal : st.isGlobal s = true ↔ st.parent? s = none
  depth_eq_zero : st.depth s = 0 ↔ st.parent? s = none
  length : (st.chain s).length ≤ UInt64.size → (st.chain s).length = st.depth s + 1
  depths : (st.chain s).length ≤ UInt64.size →
    (st.chain s).map st.depth = (List.range (st.depth s + 1)).reverse

namespace Sound

variable {st : Store} {s t p : Scope}

/-! ### The walk -/

theorem head?_chain (h : st.Sound) (s : Scope) : (st.chain s).head? = some s := by
  rw [h.chain_eq]
  cases st.parent? s <;> rfl

theorem isChain_chain (h : st.Sound) (s : Scope) :
    (st.chain s).IsChain fun t p => st.parent? t = some p := by
  induction s using h.chain_induction with
  | global s hp =>
      rw [h.chain_eq, hp]
      exact List.isChain_singleton s
  | inside s p hp ih =>
      rw [h.chain_eq, hp]
      refine List.isChain_cons.mpr ⟨fun q hq => ?_, ih⟩
      rw [h.head?_chain] at hq
      exact hp.trans hq

theorem getLast?_chain (h : st.Sound) (s : Scope) :
    (st.chain s).getLast? = some (st.root s) := by
  induction s using h.chain_induction with
  | global s hp => rw [h.chain_eq, h.root_eq, hp, List.getLast?_singleton]
  | inside s p hp ih =>
      rw [h.chain_eq, h.root_eq, hp]
      simp [List.getLast?_cons, ih]

theorem iterate_parent? (h : st.Sound) (s : Scope) (k : Nat) :
    (fun t => t.bind st.parent?)^[k] (some s) = (st.chain s)[k]? := by
  induction s using h.chain_induction generalizing k with
  | global s hp =>
      rw [h.chain_eq, hp]
      cases k with
      | zero => rfl
      | succ k =>
          rw [Function.iterate_succ_apply, Option.bind_some, hp]
          exact Function.iterate_fixed rfl k
  | inside s p hp ih =>
      rw [h.chain_eq, hp]
      cases k with
      | zero => rfl
      | succ k =>
          rw [Function.iterate_succ_apply, Option.bind_some, hp]
          exact ih k

theorem index_le_of_mem_chain (h : st.Sound) (ht : t ∈ st.chain s) : t.index ≤ s.index := by
  induction s using h.chain_induction with
  | global s hp =>
      rw [h.chain_eq, hp, List.mem_singleton] at ht
      exact le_of_eq (congrArg Scope.index ht)
  | inside s p hp ih =>
      rw [h.chain_eq, hp] at ht
      rcases List.mem_cons.mp ht with rfl | ht
      · exact le_refl _
      · exact (ih ht).trans (h.parent?_index_lt hp).le

theorem not_mem_chain_of_parent? (h : st.Sound) (hp : st.parent? s = some p) :
    s ∉ st.chain p := by
  intro hs
  have hle := h.index_le_of_mem_chain hs
  have hlt := h.parent?_index_lt hp
  omega

theorem nodup_chain (h : st.Sound) (s : Scope) : (st.chain s).Nodup := by
  induction s using h.chain_induction with
  | global s hp =>
      rw [h.chain_eq, hp]
      exact List.nodup_singleton s
  | inside s p hp ih =>
      rw [h.chain_eq, hp]
      exact List.nodup_cons.mpr ⟨h.not_mem_chain_of_parent? hp, ih⟩

theorem parent?_eq_none_iff (h : st.Sound) (ht : t ∈ st.chain s) :
    st.parent? t = none ↔ t = st.root s := by
  induction s using h.chain_induction with
  | global s hp =>
      rw [h.chain_eq, hp, List.mem_singleton] at ht
      rw [h.root_eq, hp, ht]
      exact iff_of_true hp rfl
  | inside s p hp ih =>
      rw [h.chain_eq, hp] at ht
      rw [h.root_eq, hp]
      rcases List.mem_cons.mp ht with rfl | ht
      · refine iff_of_false (by simp [hp]) ?_
        intro hroot
        exact h.not_mem_chain_of_parent? hp (hroot ▸ h.root_mem_chain p)
      · exact ih ht

/-- A walk along the links is over after as many steps as the chain has scopes. -/
theorem walk_of_length_le (h : st.Sound) {β : Type} (walk : Nat → Scope → β)
    (next : Scope → β → β) (last : Scope → β)
    (hwalk : ∀ fuel s, walk (fuel + 1) s = match st.parent? s with
      | some p => next s (walk fuel p)
      | none => last s) {fuel : Nat} (hfuel : (st.chain s).length ≤ fuel) :
    walk fuel s = walk (s.index + 1) s := by
  -- A link costs one unit of fuel and is one place of the chain, so what is left of both still fits.
  induction s using h.chain_induction generalizing fuel with
  | global s hp =>
      rw [h.chain_eq, hp, List.length_singleton] at hfuel
      obtain ⟨fuel, rfl⟩ := Nat.exists_eq_add_of_le' hfuel
      rw [hwalk, hwalk, hp]
  | inside s p hp ih =>
      rw [h.chain_eq, hp, List.length_cons] at hfuel
      obtain ⟨fuel, rfl⟩ := Nat.exists_eq_add_of_le' (Nat.one_le_of_lt hfuel)
      rw [h.walk_eq walk next last hwalk, hwalk, hp]
      exact congrArg (next s) (ih (Nat.le_of_succ_le_succ hfuel))

/-! ### What was noted when the scopes were created -/

theorem depth_of_global (h : st.Sound) (hp : st.parent? s = none) : st.depth s = 0 := by
  unfold depth
  cases hf : st.frame? s with
  | none => rfl
  | some f =>
      rw [parent?, hf] at hp
      exact h.global hf hp

theorem depth_of_parent? (h : st.Sound) (hp : st.parent? s = some p) :
    st.depth s = min (st.depth p + 1) greatestDepth := by
  obtain ⟨f, hf, hfp⟩ := exists_frame?_of_parent? hp
  obtain ⟨-, g, hg, hdepth, -⟩ := h.inside hf hfp
  simp only [depth, hf, hg, hdepth]

theorem policy_of_parent? (h : st.Sound) (hp : st.parent? s = some p) :
    st.policy s = st.policy p := by
  obtain ⟨f, hf, hfp⟩ := exists_frame?_of_parent? hp
  obtain ⟨-, g, hg, -, hpolicy⟩ := h.inside hf hfp
  simp only [policy, hf, hg, hpolicy]

theorem depth_eq_zero_iff (h : st.Sound) (s : Scope) :
    st.depth s = 0 ↔ st.parent? s = none := by
  cases hp : st.parent? s with
  | none => exact iff_of_true (h.depth_of_global hp) rfl
  | some p =>
      rw [h.depth_of_parent? hp, Nat.min_eq_zero_iff]
      simp [greatestDepth, UInt64.size]

theorem policy_root (h : st.Sound) (s : Scope) : st.policy (st.root s) = st.policy s := by
  induction s using h.chain_induction with
  | global s hp => rw [h.root_eq, hp]
  | inside s p hp ih => rw [h.root_eq, hp, h.policy_of_parent? hp, ih]

theorem root_of_mem_chain (h : st.Sound) (ht : t ∈ st.chain s) : st.root t = st.root s := by
  induction s using h.chain_induction with
  | global s hp =>
      rw [h.chain_eq, hp, List.mem_singleton] at ht
      rw [ht]
  | inside s p hp ih =>
      rw [h.chain_eq, hp] at ht
      rcases List.mem_cons.mp ht with rfl | ht
      · rfl
      · rw [h.root_eq s, hp]
        exact ih ht

/-- The depth counts the scopes of the chain as far as depths are counted. -/
theorem depth_add_one (h : st.Sound) (s : Scope) :
    st.depth s + 1 = min (st.chain s).length (greatestDepth + 1) := by
  induction s using h.chain_induction with
  | global s hp =>
      rw [h.depth_of_global hp, h.chain_eq, hp, List.length_singleton]
      omega
  | inside s p hp ih =>
      rw [h.depth_of_parent? hp, h.chain_eq, hp, List.length_cons]
      omega

theorem length_chain (h : st.Sound) (hlen : (st.chain s).length ≤ greatestDepth + 1) :
    (st.chain s).length = st.depth s + 1 := by
  rw [h.depth_add_one, Nat.min_eq_left hlen]

theorem map_depth_chain (h : st.Sound) (hlen : (st.chain s).length ≤ greatestDepth + 1) :
    (st.chain s).map st.depth = (List.range (st.depth s + 1)).reverse := by
  rw [← h.length_chain hlen]
  induction s using h.chain_induction with
  | global s hp =>
      rw [h.chain_eq, hp]
      simp [h.depth_of_global hp]
  | inside s p hp ih =>
      have hdepth := h.length_chain hlen
      rw [h.chain_eq, hp, List.length_cons] at hlen hdepth ⊢
      rw [List.map_cons, ih (by omega), List.range_succ, List.reverse_append, List.reverse_singleton,
        List.singleton_append, Nat.succ.inj hdepth]

theorem chainShape (h : st.Sound) (s : Scope) : st.ChainShape s where
  first := h.head?_chain s
  links := h.isChain_chain s
  last := h.getLast?_chain s
  walk := h.iterate_parent? s
  nodup := h.nodup_chain s
  global _ := h.parent?_eq_none_iff
  policy t ht := by rw [← h.policy_root t, h.root_of_mem_chain ht]
  isGlobal := Option.isNone_iff_eq_none
  depth_eq_zero := h.depth_eq_zero_iff s
  length := h.length_chain
  depths := h.map_depth_chain

end Sound

end ScopeChain.Store

namespace ScopeChain.World

/-- In every world that a run reaches the chain of every scope is the finite walk along the links,
with the depths and the policy of its scopes, and the listing has its scopes in that order.  No walk
takes more steps than the chain has scopes, and nothing that happens later changes the chain. -/
theorem chains_of_run (actions : List Action) (s : Scope) :
    let w := (World.empty.performAll actions).1
    let st := w.store
    st.ChainShape s ∧
      (Listing.ofChain st s).scopes.map ListedScope.depth = (st.chain s).map st.depth ∧
      (Listing.ofChain st s).scopes.map ListedScope.names = (st.chain s).map st.names ∧
      (∀ fuel, (st.chain s).length ≤ fuel →
        (st.chainFrom fuel s #[]).toList = st.chain s ∧ st.rootFrom fuel s = st.root s ∧
          ∀ n v, Store.assignFrom n v fuel s st = st.assign s n v) ∧
      ∀ later, let after := (w.performAll later).1.store
        st.isLive s = true → after.isLive s = true ∧ after.parent? s = st.parent? s ∧
          after.depth s = st.depth s ∧ after.policy s = st.policy s ∧
          after.root s = st.root s ∧ after.chain s = st.chain s := by
  intro w st
  have hw : w.Sound := sound_of_run actions
  have h : st.Sound := hw.store
  refine ⟨h.chainShape s, ?_, ?_, fun fuel hfuel => ⟨?_, ?_, fun n v => ?_⟩, fun later => ?_⟩
  · simp [Listing.ofChain]
  · simp [Listing.ofChain]
  · exact h.walk_of_length_le (fun fuel t => (st.chainFrom fuel t #[]).toList) _ _
      st.toList_chainFrom_succ hfuel
  · exact h.walk_of_length_le st.rootFrom (fun _ r => r) id (fun _ _ => rfl) hfuel
  · exact h.walk_of_length_le (fun fuel t => Store.assignFrom n v fuel t st) _ _
      (st.assignFrom_succ n v) hfuel
  · intro after hs
    have hgrows : st.Grows after := hw.grows_performAll later
    have hafter : after.Sound := (hw.performAll later).store
    exact ⟨hgrows.isLive hs, hgrows.parent? hs, hgrows.depth hs, hgrows.policy hs,
      hgrows.root h hafter hs, hgrows.chain h hafter hs⟩

/-- The chain of a block in a block, before and after the end of the run. -/
theorem chain_of_nested_blocks :
    let w := (World.empty.performAll [.newEnvironment {}, .enterBlock ⟨0⟩, .enterBlock ⟨0⟩]).1
    let after := (w.performAll [.discard ⟨0⟩]).1
    (w.store.chain ⟨2⟩).length ≤ UInt64.size ∧
      (w.store.chain ⟨2⟩).map w.store.depth = [2, 1, 0] ∧ w.store.isLive ⟨2⟩ = true ∧
      after.store.chain ⟨2⟩ = [⟨2⟩, ⟨1⟩, ⟨0⟩] := by
  intro w after
  have hlength : (w.store.chain ⟨2⟩).length ≤ UInt64.size := by decide
  obtain ⟨hshape, -, -, -, hlater⟩ :=
    chains_of_run [.newEnvironment {}, .enterBlock ⟨0⟩, .enterBlock ⟨0⟩] ⟨2⟩
  obtain ⟨-, -, -, -, -, hchain⟩ := hlater [.discard ⟨0⟩] rfl
  exact ⟨hlength, hshape.depths hlength, rfl, hchain.trans (by decide)⟩

end ScopeChain.World
