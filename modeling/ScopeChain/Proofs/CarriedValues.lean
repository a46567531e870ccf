import ScopeChain.Proofs.HandleCensus
import ScopeChain.Proofs.WorldParts
import ScopeChain.Proofs.WrittenValues

/-!
What operations write and give.  An operation that writes a value which has all that it needs leaves
a store where every bound value does, and what it gives in turn is there.
-/

namespace ScopeChain

variable {p p' : Payloads} {v : Value}

namespace Bindings.Faithful

/-- The bound values are those that the names are bound to. -/
theorem mem_values {b : Bindings} (h : b.Faithful) :
    v ∈ b.values ↔ ∃ n x, b.find? n = some x ∧ x.value = v := by
  rw [values, List.mem_map]
  constructor
  · rintro ⟨⟨n, x⟩, hmem, rfl⟩
    exact ⟨n, x, h.find?_eq_some_iff.mpr hmem, rfl⟩
  · rintro ⟨n, x, hx, rfl⟩
    exact ⟨(n, x), h.find?_eq_some_iff.mp hx, rfl⟩

end Bindings.Faithful

/-- A binding after a change has the value that the change writes or the one from before. -/
theorem Change.written?_or_of_binding? {c : Change} {s : Scope} {n : Name} {old : Option Binding}
    {x : Binding} (h : c.binding? s n old = some x) :
    c.written? = some x.value ∨ ∃ y, old = some y ∧ y.value = x.value := by
  cases c with
  | none | created f => exact .inr ⟨x, h, rfl⟩
  | defined t m y =>
      rw [binding?] at h
      split at h
      · obtain rfl := Option.some.inj h
        exact .inl rfl
      · exact .inr ⟨x, h, rfl⟩
  | assigned t m u =>
      rw [binding?] at h
      split at h
      · obtain ⟨y, -, rfl⟩ := Option.map_eq_some_iff.mp h
        exact .inl rfl
      · exact .inr ⟨x, h, rfl⟩
  | emptied t =>
      rw [binding?] at h
      split at h
      · cases h
      · exact .inr ⟨x, h, rfl⟩

namespace Store

variable {st st' : Store} {s : Scope} {n : Name}

theorem Carries.mono (hv : st.Carries p v) (hlive : ∀ s, st.isLive s = true → st'.isLive s = true)
    (hp : p.Extends p') : st'.Carries p' v :=
  Payloads.fits_mono hv hlive hp

theorem Closed.mono (hst : st.Closed p) (hp : p.Extends p') : st.Closed p' :=
  ⟨hst.isLive_parent, fun hf hv => (hst.carries hf hv).mono (fun _ hs => hs) hp⟩

theorem Closed.carries_find? (hst : st.Closed p) (hsound : st.Sound) {x : Binding}
    (hx : (st.bindings s).find? n = some x) : st.Carries p x.value := by
  have hmem : x.value ∈ (st.bindings s).values :=
    (hsound.faithful_bindings s).mem_values.mpr ⟨n, x, hx, rfl⟩
  cases hf : st.frame? s with
  | none =>
      rw [bindings_of_absent hf] at hmem
      cases hmem
  | some f =>
      rw [bindings_of_frame? hf] at hmem
      exact hst.carries hf hmem

theorem Closed.carries_lookup (hst : st.Closed p) (hsound : st.Sound)
    (hv : st.lookup s n = some v) : st.Carries p v := by
  rw [hsound.lookup_eq, Option.bind_eq_some_iff] at hv
  obtain ⟨b, -, hb⟩ := hv
  obtain ⟨x, hx, rfl⟩ := Option.map_eq_some_iff.mp hb
  exact hst.carries_find? hsound hx

end Store

namespace World.Sound

variable {w : World} {a : Action} {s : Scope}

/-- An operation whose value has all that it needs leaves the store closed. -/
theorem closed_perform (h : w.Sound) (hst : w.store.Closed p)
    (ha : ∀ v, a.value? = some v → w.store.Carries p v) : (w.perform a).1.store.Closed p where
  isLive_parent hf hq := by
    obtain ⟨-, g, hg, -⟩ := (h.perform a).store.inside hf hq
    exact Store.isLive_iff.mpr ⟨g, hg⟩
  carries {s f v} hf hv := by
    have hgrows := h.grows_perform a
    rw [← Store.bindings_of_frame? hf] at hv
    obtain ⟨n, x, hx, rfl⟩ := ((h.perform a).store.faithful_bindings s).mem_values.mp hv
    rw [h.store_perform, h.store.find?_apply (h.fits_change a)] at hx
    have hcarried : w.store.Carries p x.value := by
      rcases Change.written?_or_of_binding? hx with hwritten | ⟨y, hy, hyx⟩
      · exact ha _ (value?_of_written? hwritten)
      · rw [← hyx]
        exact hst.carries_find? h.store hy
    exact hcarried.mono (fun _ hs => hgrows.isLive hs) (.refl p)

end World.Sound

/-! ### What operations give -/

namespace Result

/-- The scope that was given. -/
def scope? : Result → Option Scope
  | .scope s => some s
  | .left s => s
  | _ => none

/-- The value that was given. -/
def value? : Result → Option Value
  | .value v => some v
  | .found v => v
  | _ => none

end Result

namespace Store

variable {st : Store} {s : Scope} {named : Option Scope} {given : Option Value}

/-- The scope is in the store, if there is one, and the value, if there is one, has all that it
needs. -/
structure Provides (st : Store) (p : Payloads) (named : Option Scope) (given : Option Value) :
    Prop where
  scope : st.Knows named
  value : ∀ v, given = some v → st.Carries p v

theorem provides_scope (hs : st.Knows named) : st.Provides p named none where
  scope := hs
  value v hv := by cases hv

theorem provides_none : st.Provides p none none :=
  provides_scope (.none st)

theorem provides_value (hs : st.Knows named) (hv : st.Carries p v) :
    st.Provides p named (some v) where
  scope := hs
  value _ hu := Option.some.inj hu ▸ hv

theorem isLive_add_next (st : Store) (f : Frame) : (st.add f).1.isLive st.next = true := by
  rw [Store.isLive, frame?_add, if_pos rfl]
  rfl

end Store

namespace World

variable {w : World} {s : Scope}

theorem mem_stack_of_innermost? {env : Environment} (h : env.innermost? = some s) :
    s ∈ env.stack := by
  unfold Environment.innermost? at h
  split at h
  · rename_i hstack
    rw [hstack, Option.some.inj h]
    exact List.mem_cons_self
  · cases h

theorem provides_performAt {place : Place} {operation : World → Scope → World × Result}
    (h : ∀ s, w.scopeAt? place = some s →
      (operation w s).1.store.Provides p (operation w s).2.scope? (operation w s).2.value?) :
    (w.performAt place operation).1.store.Provides p (w.performAt place operation).2.scope?
      (w.performAt place operation).2.value? := by
  unfold performAt
  cases hs : w.scopeAt? place with
  | none => exact Store.provides_none
  | some s => exact h s hs

theorem provides_performEntry (w : World) (e : EnvironmentId) (parent : Place)
    {answer : Environment → Result} (hscope : ∀ env, (answer env).scope? = none)
    (hvalue : ∀ env, (answer env).value? = none) :
    (w.performEntry e parent answer).1.store.Provides p (w.performEntry e parent answer).2.scope?
      (w.performEntry e parent answer).2.value? := by
  unfold performEntry
  split
  · split
    · rw [hscope, hvalue]
      exact Store.provides_none
    · exact Store.provides_none
  · exact Store.provides_none

/-- What an operation gives is there. -/
theorem Sound.provides_perform (h : w.Sound) (hst : w.store.Closed p) (a : Action) :
    (w.perform a).1.store.Provides p (w.perform a).2.scope? (w.perform a).2.value? := by
  cases a with
  | newScope => exact Store.provides_scope (.some (w.store.isLive_add_next _))
  | newGlobal policy => exact Store.provides_scope (.some (w.store.isLive_add_next _))
  | newChild parent =>
      refine provides_performAt fun s hs => ?_
      exact Store.provides_scope (.some (h.newScope_inside (h.isLive_scopeAt? hs)).2)
  | define place n v m => exact provides_performAt fun _ _ => Store.provides_none
  | assign place n v =>
      refine provides_performAt fun s _ => ?_
      split <;> exact Store.provides_none
  | get place n =>
      refine provides_performAt fun s _ => ?_
      cases hv : w.store.lookup s n with
      | none =>
          rw [get_of_unbound hv]
          exact Store.provides_none
      | some v =>
          rw [get_of_lookup hv]
          exact Store.provides_value (.none _) (hst.carries_lookup h.store hv)
  | lookup place n =>
      exact provides_performAt fun s _ => ⟨.none _, fun _ hv => hst.carries_lookup h.store hv⟩
  | contains place n => exact provides_performAt fun _ _ => Store.provides_none
  | binds place n => exact provides_performAt fun _ _ => Store.provides_none
  | mutability place n => exact provides_performAt fun _ _ => Store.provides_none
  | newEnvironment config => exact Store.provides_none
  | enterBlock e => exact w.provides_performEntry e _ (fun _ => rfl) fun _ => rfl
  | enterCall e captured => exact w.provides_performEntry e _ (fun _ => rfl) fun _ => rfl
  | leave e =>
      simp only [World.perform]
      split
      · exact Store.provides_none
      · rename_i env he
        refine Store.provides_scope fun s hs => ?_
        exact h.held he (List.mem_cons_of_mem _ (mem_stack_of_innermost? hs))
  | guardBlock e => exact w.provides_performEntry e _ (fun _ => rfl) fun _ => rfl
  | guardCall e captured => exact w.provides_performEntry e _ (fun _ => rfl) fun _ => rfl
  | restore g => exact Store.provides_none
  | capture e =>
      exact provides_performAt fun s hs => Store.provides_scope (.some (h.isLive_scopeAt? hs))
  | closure e name params body =>
      simp only [World.perform]
      split
      · exact Store.provides_none
      · rename_i env he
        exact Store.provides_value (.none _) (.function (h.held he (current_mem_held env)))
  | finish e =>
      simp only [World.perform]
      split <;> exact Store.provides_none
  | discard e => exact Store.provides_none

end World

end ScopeChain
