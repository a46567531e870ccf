import ScopeChain.Value.Text

/-!
Failures of operations on scopes.  An error carries what it is about and no position: where in a
program it happened is known to the evaluator.
-/

namespace ScopeChain

inductive Error where
  /-- A variable was read that no scope of the chain binds. -/
  | undefined (name : Name)
  /-- Under the strict policy a variable was assigned that no scope of the chain binds. -/
  | undeclared (name : Name)
  /-- The nearest binding of an assigned variable is immutable. -/
  | immutable (name : Name)
  /-- A scope below the deepest allowed one would have been entered. -/
  | tooDeep (limit : UInt64)
deriving DecidableEq, Inhabited, Repr

namespace Error

def message : Error → String
  | .undefined n => "undefined variable: " ++ n.text
  | .undeclared n => "assignment to undeclared variable: " ++ n.text
  | .immutable n => "cannot assign to immutable variable: " ++ n.text
  | .tooDeep limit => "maximum scope depth exceeded (limit: " ++ toString limit.toNat ++ ")"

/-- The name of the kind of the error. -/
def kind : Error → String
  | .undefined _ => "UndefinedVariable"
  | .undeclared _ => "UndeclaredAssignment"
  | .immutable _ => "ImmutableBinding"
  | .tooDeep _ => "DepthLimitExceeded"

/-- The name that the error is about, if it is about one. -/
def name? : Error → Option Name
  | .undefined n | .undeclared n | .immutable n => some n
  | .tooDeep _ => none

def shape (e : Error) : Shape :=
  match e with
  | .undefined n | .undeclared n | .immutable n => .record e.kind [("name", n.shape)]
  | .tooDeep limit => .record e.kind [("limit", .number limit.toNat)]

end Error

end ScopeChain
