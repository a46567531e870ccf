import ScopeChain.Store

/-!
Chains of scopes.  The chain of a scope runs from the scope itself outwards to the global scope, and
a name resolves to the first scope of the chain that binds it.  A scope is created after every scope
around it, so a walk outwards that begins at handle `i` is over within `i + 1` steps.
-/

namespace ScopeChain.Store

/-- The chain of a scope within `fuel` steps, put behind the scopes in `inner`. -/
def chainFrom (st : Store) : Nat → Scope → Array Scope → Array Scope
  | 0, _, inner => inner
  | fuel + 1, s, inner =>
      match st.parent? s with
      | some p => chainFrom st fuel p (inner.push s)
      | none => inner.push s

/-- The scope and all scopes around it, innermost first. -/
def chain (st : Store) (s : Scope) : List Scope :=
  (st.chainFrom (s.index + 1) s #[]).toList

/-- The outermost scope within `fuel` steps. -/
def rootFrom (st : Store) : Nat → Scope → Scope
  | 0, s => s
  | fuel + 1, s =>
      match st.parent? s with
      | some p => rootFrom st fuel p
      | none => s

/-- The global scope of the chain of a scope. -/
def root (st : Store) (s : Scope) : Scope :=
  st.rootFrom (s.index + 1) s

/-- The scope whose binding a name has in a scope: the first of its chain that binds the name. -/
def binder? (st : Store) (s : Scope) (n : Name) : Option Scope :=
  (st.chain s).find? fun t => st.binds t n

def lookup (st : Store) (s : Scope) (n : Name) : Option Value :=
  (st.chain s).findSome? fun t => ((st.bindings t).find? n).map Binding.value

def mutability? (st : Store) (s : Scope) (n : Name) : Option Mutability :=
  (st.chain s).findSome? fun t => ((st.bindings t).find? n).map Binding.mutability

/-- Whether a name is bound in the scope or in a scope around it. -/
def contains (st : Store) (s : Scope) (n : Name) : Bool :=
  (st.chain s).any fun t => st.binds t n

inductive Assigned where
  /-- The nearest binding has the value. -/
  | updated
  /-- Nothing was bound, and the global scope binds the name now. -/
  | created
  /-- The nearest binding is immutable; nothing changed. -/
  | immutable
  /-- Nothing was bound and the policy is strict; nothing changed. -/
  | undeclared
deriving DecidableEq, Inhabited, Repr

/-- Assign outwards from a scope within `fuel` steps. -/
def assignFrom (n : Name) (v : Value) : Nat → Scope → Store → Store × Assigned
  | 0, _, st => (st, .undeclared)
  | fuel + 1, s, st =>
      match (st.bindings s).find? n with
      | some x =>
          if x.mutability.isMutable then
            (st.update s fun f => { f with bindings := f.bindings.assign n v }, .updated)
          else
            (st, .immutable)
      | none =>
          match st.parent? s with
          | some p => assignFrom n v fuel p st
          | none =>
              if (st.policy s).allowsUndeclared then (st.bind s n ⟨v, .mutable⟩, .created)
              else (st, .undeclared)

/-- Assign to the nearest binding of a name; when there is none, the policy of the chain decides. -/
def assign (st : Store) (s : Scope) (n : Name) (v : Value) : Store × Assigned :=
  assignFrom n v (s.index + 1) s st

theorem chainFrom_append (st : Store) (fuel : Nat) (s : Scope) (inner : Array Scope) :
    st.chainFrom fuel s inner = inner ++ st.chainFrom fuel s #[] := by
  induction fuel generalizing s inner with
  | zero => simp [chainFrom]
  | succ fuel ih =>
      simp only [chainFrom]
      split
      · rename_i p _
        rw [ih p (inner.push s), ih p (#[].push s)]
        simp only [Array.push_eq_append, Array.append_assoc, Array.empty_append]
      · simp

theorem toList_chainFrom_succ (st : Store) (fuel : Nat) (s : Scope) :
    (st.chainFrom (fuel + 1) s #[]).toList = match st.parent? s with
      | some p => s :: (st.chainFrom fuel p #[]).toList
      | none => [s] := by
  simp only [chainFrom]
  cases st.parent? s with
  | none => rfl
  | some p =>
      change (st.chainFrom fuel p (#[].push s)).toList = _
      rw [chainFrom_append]
      simp

end ScopeChain.Store
