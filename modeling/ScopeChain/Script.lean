import ScopeChain.Action
import ScopeChain.Listing
import ScopeChain.Inspection

/-!
Scripts.  A script exercises scopes and one environment at a time, step by step.  It has registers
for scopes and for values, and each step writes entries to a transcript: the events that it caused
and then its answer.  A step that fails answers why, and the next one runs.
-/

namespace ScopeChain.Script

/-- How a script names a scope. -/
inductive ScopeRef where
  | global
  | current
  /-- The captured scope of the function in a value register. -/
  | captured (register : String)
  | register (name : String)
deriving DecidableEq, Inhabited, Repr

/-- How a script gives a value.  Each text and each list is made anew. -/
inductive Expr where
  | void
  | bool (b : Bool)
  | int (n : Int64)
  | float (x : Binary64)
  | text (content : String)
  | list (items : List Expr)
  | function (name : Option Name) (params : List Name) (body : Body) (scope : ScopeRef)
  | builtin (name : String)
  /-- The value in a value register. -/
  | register (name : String)
  /-- The value inside `n` lists of one item. -/
  | nested (n : Nat) (item : Expr)
  /-- What is no expression. -/
  | invalid
deriving Inhabited, Repr

/-- What a step without steps inside does.  The scope that the step names is where it works; if the
step names none, a command with a counterpart on environments works in the current scope, and
another one fails.  `dest` is the register for what it gives. -/
inductive Command where
  | newScope (dest : Option String)
  | newGlobal (dest : Option String)
  | newGlobalWith (policy : Policy) (dest : Option String)
  | child (dest : Option String)
  /-- Give the same scope again. -/
  | alias (dest : Option String)
  /-- Create `n` scopes, each inside the one before. -/
  | descend (n : Nat) (dest : Option String)
  /-- Create `n` children of one scope, each with a closure over the one before, in lists or not. -/
  | closureChain (n : Nat) (inList : Bool) (dest : Option String)
  | parent (dest : Option String)
  | root (dest : Option String)
  | chain
  | identify
  | compareScopes (other : ScopeRef)
  | describe
  | listing
  | dropScope (register : String)
  | dropValue (register : String)
  | define (name : Name) (value : Expr) (mutability : Mutability)
  | defineGlobal (name : Name) (value : Expr)
  | assign (name : Name) (value : Expr)
  /-- Define `n` names that end in a number, each as that number. -/
  | fill (name : String) (n : Nat)
  | get (name : Name) (dest : Option String)
  | lookup (name : Name) (dest : Option String)
  | contains (name : Name)
  | binds (name : Name)
  | mutability (name : Name)
  | newEnvironment (config : Config)
  | dropEnvironment
  | finish
  | state
  | enterBlock
  | enterCall (captured : ScopeRef)
  | leave (dest : Option String)
  | capture (dest : Option String)
  | closure (name : Option Name) (params : List Name) (body : Body) (dest : Option String)
  | bindValue (value : Expr) (dest : Option String)
  | inspect (value : Expr)
  | compareValues (a b : Expr)
  /-- What is no command. -/
  | invalid
deriving Inhabited, Repr

/-- How a guarded block is entered. -/
inductive Entrance where
  | block
  | call (captured : ScopeRef)
deriving DecidableEq, Inhabited, Repr

/-- A step.  Each may name a scope with `on`; a step that names a scope which is not there is not
carried out. -/
inductive Step where
  | command (on : Option ScopeRef) (c : Command)
  /-- Run steps under a guard, all of them or up to the first that fails. -/
  | guarded (on : Option ScopeRef) (entrance : Entrance) (untilFailure : Bool) (body : List Step)
  /-- Run steps up to a panic among them, and go on after it. -/
  | attempt (on : Option ScopeRef) (body : List Step)
  /-- Abandon the steps up to the nearest attempt around them. -/
  | panic (on : Option ScopeRef) (message : String)
deriving Inhabited, Repr

/-- Why a step could not be carried out. -/
inductive Fault where
  /-- A scope was asked for that no register holds. -/
  | noScope
  /-- A value was asked for that no register holds. -/
  | noValue
  /-- There is no environment. -/
  | environmentGone
  /-- The environment cannot end while a guard of it is there. -/
  | environmentBorrowed
  | badStep
  | badValue
deriving DecidableEq, Inhabited, Repr

/-- What a description shows of a scope. -/
structure Description where
  depth : Nat
  isGlobal : Bool
  policy : Policy
  bindings : List (Name × Binding)
  debug : String
  pretty : String
deriving Inhabited, Repr

/-- What a report shows of an environment. -/
structure EnvironmentState where
  size : Nat
  current : Scope
  currentDepth : Nat
  global : Scope
  config : Config
  names : List Name
deriving Inhabited, Repr

/-- The answer of a step. -/
inductive Answer where
  | done
  /-- A scope was put into a register or given up; its depth is told. -/
  | depth (n : Nat)
  | value (v : Value)
  /-- Nothing was found. -/
  | nothing
  | flag (b : Bool)
  | scope (s : Option Scope)
  | chain (scopes : List (Scope × Nat))
  | sameScope (b : Bool)
  | description (d : Description)
  | listing (l : Listing)
  | dropped (b : Bool)
  | mutability (m : Option Mutability)
  | released (n : Nat)
  | state (st : EnvironmentState)
  | left (s : Option Scope) (size : Nat)
  /-- A guarded block begins. -/
  | entered (size depth : Nat)
  /-- A guarded block is over; `ran` of its steps were run. -/
  | restored (size ran : Nat)
  | ran (n : Nat)
  | panicked (message : String)
  | size (n : Nat)
  | inspection (i : Inspection)
  | comparison (ab ba : Bool) (samePayload : Option Bool)
  | error (e : Error)
  | fault (f : Fault)
deriving Inhabited

namespace Answer

/-- Whether the answer says why a step failed. -/
def isFailure : Answer → Bool
  | .error _ | .fault _ => true
  | _ => false

end Answer

/-- One entry of a transcript. -/
inductive Entry where
  | event (e : Event)
  | answer (a : Answer)
deriving Inhabited

namespace Entry

/-- Whether the entry says why a step failed. -/
def isFailure : Entry → Bool
  | .event _ => false
  | .answer a => a.isFailure

end Entry

end ScopeChain.Script
