import ScopeChain.Closure
import ScopeChain.Config

/-!
Environments.  An environment keeps a stack of the scopes that a run has entered, with its global
scope at the bottom.  The global scope is never left.
-/

namespace ScopeChain

/-- One run of an interpreter: the scopes that it has entered, and what it was set up with. -/
structure Environment where
  /-- The entered scopes, the last entered one first; the global scope is at the end. -/
  stack : List Scope
  global : Scope
  config : Config
  /-- Whether the run is over. -/
  finished : Bool
deriving DecidableEq, Inhabited, Repr

namespace Environment

/-- The environment at the beginning of a run whose global scope is `s`. -/
def start (s : Scope) (config : Config) : Environment :=
  ⟨[s], s, config, false⟩

def current (e : Environment) : Scope :=
  e.stack.headD e.global

def size (e : Environment) : Nat :=
  e.stack.length

def enter (e : Environment) (s : Scope) : Environment :=
  { e with stack := s :: e.stack }

/-- The scope that leaving would leave; the global scope is never left. -/
def innermost? (e : Environment) : Option Scope :=
  match e.stack with
  | s :: _ :: _ => some s
  | _ => none

/-- Leave the scope entered last; the global scope is never left. -/
def leave (e : Environment) : Environment :=
  match e.stack with
  | _ :: t :: rest => { e with stack := t :: rest }
  | _ => e

/-- Leave scopes until at most `size` are entered; the global scope is never left. -/
def leaveAbove (e : Environment) (size : Nat) : Environment :=
  { e with stack := e.stack.drop (e.stack.length - max size 1) }

/-- The environment after its run. -/
def close (e : Environment) : Environment :=
  { e.leaveAbove 1 with finished := true }

/-- A function made in the current scope. -/
def closure (e : Environment) (name : Option Name) (params : List Name) (body : Body) : Closure :=
  ⟨name, params, body, e.current⟩

end Environment

/-- A handle to an environment; handles are never used twice. -/
structure EnvironmentId where
  index : Nat
deriving DecidableEq, Inhabited, Repr

/-- What has to be restored when a guarded block or call ends. -/
structure Guard where
  environment : EnvironmentId
  /-- The number of scopes that were entered before. -/
  base : Nat
deriving DecidableEq, Inhabited, Repr

end ScopeChain
