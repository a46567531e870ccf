/-!
Mutability of bindings.
-/

namespace ScopeChain

/-- Whether a binding can be assigned. -/
inductive Mutability where
  | mutable
  | immutable
deriving DecidableEq, Inhabited, Repr

namespace Mutability

def isMutable : Mutability → Bool
  | .mutable => true
  | .immutable => false

def label : Mutability → String
  | .mutable => "Mutable"
  | .immutable => "Immutable"

end Mutability

end ScopeChain
