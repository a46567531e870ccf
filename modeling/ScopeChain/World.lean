import ScopeChain.Environment
import ScopeChain.Error
import ScopeChain.Store.Chain

/-!
The world of a host program: the store of scopes, the environments that run on it, and the events
that were reported so far.  The operations on scopes change the store and report what they do.
-/

namespace ScopeChain

/-- All that the operations can change. -/
structure World where
  store : Store
  /-- Each environment at its place, or nothing when it is gone. -/
  environments : Array (Option Environment)
  /-- The events in the order in which they were reported. -/
  log : Array Event
deriving Inhabited

namespace World

def empty : World :=
  ⟨.empty, #[], #[]⟩

def report (w : World) (e : Event) : World :=
  { w with log := w.log.push e }

/-- Create a scope inside `parent`, or a global scope of the default policy without one. -/
def newScope : World → Option Scope → World × Scope
  | ⟨store, environments, log⟩, parent =>
      match store.createInside parent with
      | (store, s) => (⟨store, environments, log.push (.scopeCreated (store.depth s))⟩, s)

/-- Create a global scope of the given policy. -/
def newGlobal : World → Policy → World × Scope
  | ⟨store, environments, log⟩, policy =>
      match store.createGlobal policy with
      | (store, s) => (⟨store, environments, log.push (.globalCreated policy)⟩, s)

/-- Bind a name in a scope itself; a binding of the name there is replaced. -/
def define (w : World) (s : Scope) (n : Name) (v : Value) (m : Mutability) : World :=
  { w with store := w.store.bind s n ⟨v, m⟩, log := w.log.push (.defined n m) }

/-- Assign to the nearest binding of a name. -/
def assign : World → Scope → Name → Value → World × Except Error Unit
  | ⟨store, environments, log⟩, s, n, v =>
      match store.assign s n v with
      | (store, .updated) => (⟨store, environments, log⟩, .ok ())
      | (store, .created) =>
          (⟨store, environments, log.push (.assignmentCreatedGlobal n)⟩, .ok ())
      | (store, .immutable) => (⟨store, environments, log⟩, .error (.immutable n))
      | (store, .undeclared) =>
          (⟨store, environments, log.push (.assignmentRejected n)⟩, .error (.undeclared n))

/-- The value of a name that has to be bound. -/
def get (w : World) (s : Scope) (n : Name) : World × Except Error Value :=
  match w.store.lookup s n with
  | some v => (w, .ok v)
  | none => (w.report (.undefinedRead n), .error (.undefined n))

end World

end ScopeChain
