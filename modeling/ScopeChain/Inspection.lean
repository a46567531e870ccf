import ScopeChain.Store

/-!
Inspections of values.  The shape of a closure shows what its captured scope binds, so the texts of a
value belong to a moment; an inspection keeps them as they were.
-/

namespace ScopeChain

/-- What an inspection shows of a closure. -/
structure ClosureView where
  closure : Closure
  debug : String
  capturedDepth : Nat
deriving Inhabited, Repr

/-- A value with its texts. -/
structure Inspection where
  value : Value
  display : String
  debug : String
  pretty : String
  closure : Option ClosureView
deriving Inhabited, Repr

namespace Store

def viewClosure (st : Store) (f : Closure) : ClosureView where
  closure := f
  debug := (f.shape st.scopeShape).line
  capturedDepth := st.depth f.captured

def inspect (st : Store) (v : Value) : Inspection where
  value := v
  display := v.display
  debug := (v.shape st.scopeShape).line
  pretty := (v.shape st.scopeShape).pretty
  closure := v.closure?.map st.viewClosure

end Store

end ScopeChain
