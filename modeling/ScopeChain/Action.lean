import ScopeChain.World.Run

/-!
Operations as data.  An action is one operation on scopes or on an environment; performing it gives
the changed world and what the operation answers.  An action that names a scope or an environment
which does not exist changes nothing.
-/

namespace ScopeChain

/-- Where an operation on a scope takes place. -/
inductive Place where
  | scope (s : Scope)
  /-- The scope that the environment has entered last. -/
  | current (e : EnvironmentId)
  /-- The global scope of the environment. -/
  | global (e : EnvironmentId)
deriving DecidableEq, Inhabited, Repr

inductive Action where
  | newScope
  | newGlobal (policy : Policy)
  | newChild (parent : Place)
  /-- Bind a name in the scope itself. -/
  | define (place : Place) (name : Name) (value : Value) (mutability : Mutability)
  /-- Assign to the nearest binding. -/
  | assign (place : Place) (name : Name) (value : Value)
  /-- Read a variable that has to be bound. -/
  | get (place : Place) (name : Name)
  /-- Read a variable that may be unbound. -/
  | lookup (place : Place) (name : Name)
  | contains (place : Place) (name : Name)
  | binds (place : Place) (name : Name)
  | mutability (place : Place) (name : Name)
  | newEnvironment (config : Config)
  | enterBlock (e : EnvironmentId)
  /-- Enter a call of a function that captured the scope. -/
  | enterCall (e : EnvironmentId) (captured : Scope)
  /-- Leave the scope entered last. -/
  | leave (e : EnvironmentId)
  | guardBlock (e : EnvironmentId)
  /-- Enter a call under a guard. -/
  | guardCall (e : EnvironmentId) (captured : Scope)
  /-- End what a guard guards. -/
  | restore (g : Guard)
  /-- The scope that a function made now would capture. -/
  | capture (e : EnvironmentId)
  | closure (e : EnvironmentId) (name : Option Name) (params : List Name) (body : Body)
  /-- End a run and give up its environment. -/
  | finish (e : EnvironmentId)
  /-- Give up an environment. -/
  | discard (e : EnvironmentId)
deriving Inhabited, Repr

/-- What an operation answers. -/
inductive Result where
  | done
  | scope (s : Scope)
  /-- The scope that was left, if one was. -/
  | left (s : Option Scope)
  | value (v : Value)
  /-- The value that was found, if one was. -/
  | found (v : Option Value)
  | flag (b : Bool)
  | mutability (m : Option Mutability)
  | environment (e : EnvironmentId)
  | guard (g : Guard)
  /-- The number of bindings that the end of a run released. -/
  | released (n : Nat)
  | failed (e : Error)
  /-- The action named a scope or an environment that does not exist. -/
  | absent
deriving Inhabited, Repr

namespace World

/-- The scope of a place. -/
def scopeAt? (w : World) : Place → Option Scope
  | .scope s => if w.store.isLive s then some s else none
  | .current e => (w.environment? e).map Environment.current
  | .global e => (w.environment? e).map Environment.global

/-- Enter a child of the scope of a place; `answer` is the answer when that succeeds. -/
def performEntry (w : World) (e : EnvironmentId) (parent : Place)
    (answer : Environment → Result) : World × Result :=
  match w.environment? e, w.scopeAt? parent with
  | some env, some s =>
      match w.enterChildOf e env s with
      | (w, .ok _) => (w, answer env)
      | (w, .error error) => (w, .failed error)
  | _, _ => (w, .absent)

/-- Perform an operation at the scope of a place. -/
def performAt (w : World) (place : Place) (operation : World → Scope → World × Result) :
    World × Result :=
  match w.scopeAt? place with
  | none => (w, .absent)
  | some s => operation w s

def perform (w : World) : Action → World × Result
  | .newScope =>
      match w.newScope none with
      | (w, s) => (w, .scope s)
  | .newGlobal policy =>
      match w.newGlobal policy with
      | (w, s) => (w, .scope s)
  | .newChild parent => w.performAt parent fun w s =>
      match w.newScope (some s) with
      | (w, child) => (w, .scope child)
  | .define place n v m => w.performAt place fun w s => (w.define s n v m, .done)
  | .assign place n v => w.performAt place fun w s =>
      match w.assign s n v with
      | (w, .ok ()) => (w, .done)
      | (w, .error e) => (w, .failed e)
  | .get place n => w.performAt place fun w s =>
      match w.get s n with
      | (w, .ok v) => (w, .value v)
      | (w, .error e) => (w, .failed e)
  | .lookup place n => w.performAt place fun w s => (w, .found (w.store.lookup s n))
  | .contains place n => w.performAt place fun w s => (w, .flag (w.store.contains s n))
  | .binds place n => w.performAt place fun w s => (w, .flag (w.store.binds s n))
  | .mutability place n => w.performAt place fun w s => (w, .mutability (w.store.mutability? s n))
  | .newEnvironment config =>
      match w.newEnvironment config with
      | (w, e) => (w, .environment e)
  | .enterBlock e => w.performEntry e (.current e) fun _ => .done
  | .enterCall e captured => w.performEntry e (.scope captured) fun _ => .done
  | .leave e =>
      match w.environment? e with
      | none => (w, .absent)
      | some env => (w.updateEnvironment e Environment.leave, .left env.innermost?)
  | .guardBlock e => w.performEntry e (.current e) fun env => .guard ⟨e, env.size⟩
  | .guardCall e captured =>
      w.performEntry e (.scope captured) fun env => .guard ⟨e, env.size⟩
  | .restore g => (w.restore g, .done)
  | .capture e => w.performAt (.current e) fun w s => (w, .scope s)
  | .closure e name params body =>
      match w.environment? e with
      | none => (w, .absent)
      | some env => (w, .value (.function (env.closure name params body)))
  | .finish e =>
      match w.environment? e with
      | none => (w, .absent)
      | some _ =>
          match w.finish e with
          | (w, n) => (w, .released n)
  | .discard e => (w.discard e, .done)

def performAll (w : World) : List Action → World × List Result
  | [] => (w, [])
  | a :: rest =>
      match w.perform a with
      | (w, r) =>
          match performAll w rest with
          | (w, rs) => (w, r :: rs)

end World

end ScopeChain
