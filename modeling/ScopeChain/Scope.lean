/-!
Handles to scopes.  A scope is known by its handle alone: two handles are equal when they refer to
the same scope, whatever the scopes bind.
-/

namespace ScopeChain

/-- A handle to a scope: the place that its frame was given in the store when it was created. -/
structure Scope where
  index : Nat
deriving DecidableEq, Inhabited, Repr

end ScopeChain
