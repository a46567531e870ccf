import ScopeChain.Proofs.ScopeTree
import ScopeChain.World

/-!
Resolution of names.  Some readers ask the indexes of the scopes of a chain, others take the first
binding that a scope can show, and assignment walks outwards on its own.  Over faithful bindings all
of them are decided by one scope, the nearest one that binds the name.
-/

namespace ScopeChain.Store

variable {st : Store} {s b : Scope} {n : Name}

/-- What an assignment does at one scope of a chain, when `outer` is what it does further out. -/
def assignAt (st : Store) (n : Name) (v : Value) (s : Scope) (outer : Store × Assigned) :
    Store × Assigned :=
  match (st.bindings s).find? n with
  | some x =>
      if x.mutability.isMutable then (st.rebind s fun b => b.assign n v, .updated)
      else (st, .immutable)
  | none => outer

/-- What an assignment does at the global scope `r` of a chain that does not bind the name. -/
def assignUnbound (st : Store) (n : Name) (v : Value) (r : Scope) : Store × Assigned :=
  if (st.policy r).allowsUndeclared then (st.bind r n ⟨v, .mutable⟩, .created)
  else (st, .undeclared)

theorem assignFrom_succ (st : Store) (n : Name) (v : Value) (fuel : Nat) (s : Scope) :
    assignFrom n v (fuel + 1) s st = match st.parent? s with
      | some p => st.assignAt n v s (assignFrom n v fuel p st)
      | none => st.assignAt n v s (st.assignUnbound n v s) := by
  simp only [assignFrom, assignAt]
  cases st.parent? s <;> rfl

theorem binds_of_binder? (hb : st.binder? s n = some b) : st.binds b n = true := by
  simpa using List.find?_some hb

theorem isLive_of_binds (hb : st.binds b n = true) : st.isLive b = true := by
  cases hf : st.frame? b with
  | none => simp [binds, bindings_of_absent hf, Bindings.contains, Bindings.empty] at hb
  | some f => exact isLive_iff.mpr ⟨f, hf⟩

theorem contains_eq_isSome_binder? (st : Store) (s : Scope) (n : Name) :
    st.contains s n = (st.binder? s n).isSome := by
  rw [contains, binder?, List.isSome_find?]

namespace Sound

theorem binder?_eq (h : st.Sound) (s : Scope) (n : Name) :
    st.binder? s n = if st.binds s n then some s else
      match st.parent? s with
      | some p => st.binder? p n
      | none => none := by
  rw [binder?, h.chain_eq]
  cases hp : st.parent? s with
  | none =>
      cases hb : st.binds s n <;> simp [hb]
  | some p =>
      cases hb : st.binds s n <;> simp [hb, binder?]

theorem exists_find?_of_binds (h : st.Sound) (hb : st.binds b n = true) :
    ∃ x, (st.bindings b).find? n = some x := by
  rwa [binds, (h.faithful_bindings b).contains_eq_isSome_find?, Option.isSome_iff_exists] at hb

theorem find?_eq_none (h : st.Sound) (hb : st.binds b n = false) :
    (st.bindings b).find? n = none := by
  rwa [binds, (h.faithful_bindings b).contains_eq_isSome_find?, Option.isSome_eq_false_iff,
    Option.isNone_iff_eq_none] at hb

/-- The first binding that a scope of the chain shows is that of the nearest binder. -/
theorem findSome?_chain (h : st.Sound) {α : Type} (part : Binding → α) (s : Scope) (n : Name) :
    ((st.chain s).findSome? fun t => ((st.bindings t).find? n).map part) =
      (st.binder? s n).bind fun b => ((st.bindings b).find? n).map part := by
  unfold binder?
  induction st.chain s with
  | nil => rfl
  | cons t rest ih =>
      cases hb : st.binds t n with
      | true =>
          obtain ⟨x, hx⟩ := h.exists_find?_of_binds hb
          simp [hb, hx]
      | false => simp [hb, h.find?_eq_none hb, ih]

theorem lookup_eq (h : st.Sound) (s : Scope) (n : Name) :
    st.lookup s n =
      (st.binder? s n).bind fun b => ((st.bindings b).find? n).map Binding.value :=
  h.findSome?_chain Binding.value s n

theorem mutability?_eq (h : st.Sound) (s : Scope) (n : Name) :
    st.mutability? s n =
      (st.binder? s n).bind fun b => ((st.bindings b).find? n).map Binding.mutability :=
  h.findSome?_chain Binding.mutability s n

/-! ### The global scope of a chain -/

theorem parent?_root (h : st.Sound) (s : Scope) : st.parent? (st.root s) = none := by
  induction s using h.chain_induction with
  | global s hp => simp [h.root_eq s, hp]
  | inside s p hp ih =>
      rw [h.root_eq, hp]
      exact ih

theorem isLive_root (h : st.Sound) (hs : st.isLive s = true) : st.isLive (st.root s) = true := by
  induction s using h.chain_induction with
  | global s hp => simpa [h.root_eq s, hp] using hs
  | inside s p hp ih => simpa [h.root_eq s, hp] using ih (h.isLive_parent? hp)

/-- Where nothing of the chain binds a name, its global scope does not. -/
theorem binds_root_eq_false (h : st.Sound) (hb : st.binder? s n = none) :
    st.binds (st.root s) n = false := by
  induction s using h.chain_induction with
  | global s hp =>
      rw [h.binder?_eq] at hb
      simpa [h.root_eq s, hp] using hb
  | inside s p hp ih =>
      rw [h.binder?_eq, hp] at hb
      rw [h.root_eq, hp]
      apply ih
      by_contra hne
      split at hb
      · cases hb
      · exact hne hb

/-! ### Assignment -/

theorem assign_of_find? {x : Binding} (hx : (st.bindings s).find? n = some x) (v : Value) :
    st.assign s n v =
      if x.mutability.isMutable then (st.rebind s fun bs => bs.assign n v, .updated)
      else (st, .immutable) := by
  simp only [assign, assignFrom, hx]
  rfl

/-- Where a scope does not bind the name, the assignment goes on outwards. -/
theorem assign_of_unbound (h : st.Sound) (hx : (st.bindings s).find? n = none) (v : Value) :
    st.assign s n v = match st.parent? s with
      | some p => st.assign p n v
      | none =>
          if (st.policy s).allowsUndeclared then (st.bind s n ⟨v, .mutable⟩, .created)
          else (st, .undeclared) := by
  have hwalk := h.walk_eq (fun fuel t => assignFrom n v fuel t st) (st.assignAt n v)
    (fun t => st.assignAt n v t (st.assignUnbound n v t)) (st.assignFrom_succ n v) s
  simp only [assignAt, assignUnbound, hx] at hwalk
  exact hwalk

/-- What an assignment does is told by the nearest binder and the policy of the global scope. -/
theorem assign_eq (h : st.Sound) (s : Scope) (n : Name) (v : Value) :
    st.assign s n v = match st.binder? s n with
      | some b =>
          if ((st.bindings b).find? n).any fun x => x.mutability.isMutable then
            (st.rebind b fun bs => bs.assign n v, .updated)
          else (st, .immutable)
      | none =>
          if (st.policy (st.root s)).allowsUndeclared then
            (st.bind (st.root s) n ⟨v, .mutable⟩, .created)
          else (st, .undeclared) := by
  have hbound : ∀ t, st.binds t n = true → st.assign t n v =
      if ((st.bindings t).find? n).any fun x => x.mutability.isMutable then
        (st.rebind t fun bs => bs.assign n v, .updated)
      else (st, .immutable) := by
    intro t ht
    obtain ⟨x, hx⟩ := h.exists_find?_of_binds ht
    rw [assign_of_find? hx, hx]
    rfl
  induction s using h.chain_induction with
  | global s hp =>
      rw [h.binder?_eq, h.root_eq, hp]
      cases hb : st.binds s n with
      | true => exact hbound s hb
      | false =>
          rw [h.assign_of_unbound (h.find?_eq_none hb), hp]
          rfl
  | inside s p hp ih =>
      rw [h.binder?_eq, h.root_eq, hp]
      cases hb : st.binds s n with
      | true => exact hbound s hb
      | false =>
          rw [h.assign_of_unbound (h.find?_eq_none hb), hp]
          exact ih

end Sound

end ScopeChain.Store

namespace ScopeChain.World

theorem get_of_lookup {w : World} {s : Scope} {n : Name} {v : Value}
    (hv : w.store.lookup s n = some v) : w.get s n = (w, .ok v) := by
  simp [get, hv]

theorem get_of_unbound {w : World} {s : Scope} {n : Name} (hv : w.store.lookup s n = none) :
    w.get s n = (w.report (.undefinedRead n), .error (.undefined n)) := by
  simp [get, hv]

end ScopeChain.World
