import ScopeChain.Name
import ScopeChain.Scope

/-!
User-defined functions.  A closure keeps the scope in which it was made, and a call of it runs in a
child of that scope.
-/

namespace ScopeChain

/-- The number of a function body in the syntax tree of the evaluator. -/
structure Body where
  number : UInt32
deriving DecidableEq, Inhabited, Repr

/-- A function with the scope in which it was made. -/
structure Closure where
  name : Option Name
  params : List Name
  body : Body
  captured : Scope
deriving DecidableEq, Inhabited, Repr

namespace Closure

def arity (f : Closure) : Nat :=
  f.params.length

/-- Functions are equal when they have the same body and captured the same scope. -/
def equals (f g : Closure) : Bool :=
  f.body == g.body && f.captured == g.captured

theorem equals_iff {f g : Closure} :
    f.equals g = true ↔ f.body = g.body ∧ f.captured = g.captured := by
  simp [equals]

end Closure

end ScopeChain
