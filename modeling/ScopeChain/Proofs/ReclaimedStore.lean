import ScopeChain.Proofs.HandleCensus
import ScopeChain.Proofs.Reclaiming
import ScopeChain.Proofs.WorldParts

/-!
Reclaiming from the census.  What reclaiming leaves is a part of the store that was there: each
scope that is left has its frame, everything that these lead to is left, and so is what is still
held.
-/

namespace ScopeChain.Store

variable {st st' full : Store} {c : Census} {p : Payloads} {scopes : List Scope}
  {values : List Value} {outside outside' : List Held} {items : Allocation → List Value}

theorem Counted.perm (hc : st.Counted c items outside) (hperm : outside.Perm outside') :
    st.Counted c items outside' where
  counted x := by
    rw [hc.counted, Held.countTo_append, Held.countTo_append, Held.countTo_perm hperm]
  present := hc.present
  outside_agrees h hh := hc.outside_agrees h (hperm.mem_iff.mpr hh)
  kept_agrees := hc.kept_agrees

theorem size_reclaim (st : Store) (c : Census) (scopes : List Scope) (values : List Value) :
    (st.reclaim c scopes values).1.frames.size = st.frames.size := by
  fun_induction Store.reclaim st c scopes values with
  | case6 => rfl
  | case9 st c s scopes _ _ _ f _ ih => rw [ih, release, Array.size_setIfInBounds]
  | _ => assumption

/-- When handles are dropped and what only they kept is reclaimed, each scope that is left has its
frame, and the census counts the handles that are left. -/
theorem Counted.reclaim (hc : st.Counted c items
      (values.map Value.held ++ scopes.map Held.scope ++ outside)) :
    (st.reclaim c scopes values).1.PartOf st ∧
      (st.reclaim c scopes values).1.Counted (st.reclaim c scopes values).2 items outside := by
  obtain ⟨final, hends, hreclaim⟩ := Worklist.exists_ends st c scopes values []
  have hm : final.memory.Outcome st c items (values.map Value.held ++ scopes.map Held.scope) :=
    hends.outcome rfl hc
  have hsize := st.size_reclaim c scopes values
  rw [hreclaim] at hsize ⊢
  refine ⟨⟨hsize.symm, fun s hs => ?_⟩, hm.counted hc⟩
  have hframe := hm.frames s
  split at hframe
  · rw [Store.isLive, hframe] at hs
    cases hs
  · exact hframe.symm

namespace PartOf

theorem trans (h : st.PartOf st') (h' : st'.PartOf full) : st.PartOf full where
  size_eq := h'.size_eq.trans h.size_eq
  frame?_eq s hs := (h'.frame?_eq s (h.isLive hs)).trans (h.frame?_eq s hs)

theorem frame?_of (h : st.PartOf full) {s : Scope} {f : Frame} (hf : st.frame? s = some f) :
    full.frame? s = some f :=
  (h.frame?_eq s (isLive_iff.mpr ⟨f, hf⟩)).trans hf

/-- A part that is closed under links is sound. -/
theorem sound (h : st.PartOf full) (hfull : full.Sound) (hst : st.Closed p) : st.Sound where
  faithful hf := hfull.faithful (h.frame?_of hf)
  global hf := hfull.global (h.frame?_of hf)
  inside {s f q} hf hq := by
    obtain ⟨hlt, g, hg, hfg⟩ := hfull.inside (h.frame?_of hf) hq
    refine ⟨hlt, g, ?_, hfg⟩
    rw [← h.frame?_eq q (hst.isLive_parent hf hq), hg]

/-- A part that the census counts is closed if the store was. -/
theorem closed (h : st.PartOf full) (hfull : full.Closed p) (hc : st.Counted c p.items outside) :
    st.Closed p :=
  hc.closed fun hf hv => hfull.carries (h.frame?_of hf) hv

end PartOf

end ScopeChain.Store
