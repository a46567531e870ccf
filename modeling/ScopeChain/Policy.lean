import ScopeChain.Text.Blank

/-!
The assignment policy of a chain: what becomes of an assignment to a name that no scope of the chain
binds.
-/

namespace ScopeChain

/-- What an assignment does when no scope of the chain binds the name. -/
inductive Policy where
  /-- It binds the name in the global scope. -/
  | createGlobal
  /-- It fails. -/
  | strict
deriving DecidableEq, Inhabited, Repr

namespace Policy

/-- Whether an assignment to an unbound name creates a binding. -/
def allowsUndeclared : Policy → Bool
  | .createGlobal => true
  | .strict => false

def label : Policy → String
  | .createGlobal => "CreateGlobal"
  | .strict => "Strict"

/-- The words for the policy that creates globals. -/
def createGlobalWords : List String :=
  ["permissive", "create-global", "create_global"]

/-- The word for the policy that rejects the assignment. -/
def strictWord : String :=
  "strict"

/-- The policy that a text names, whatever blank surrounds the word and whatever the case of its
ASCII letters. -/
def parse? (text : String) : Option Policy :=
  let word := String.ofList ((Text.trim text.toList).map Char.toLower)
  if word ∈ createGlobalWords then some .createGlobal
  else if word = strictWord then some .strict
  else none

end Policy

end ScopeChain
