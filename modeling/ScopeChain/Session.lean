import ScopeChain.Reclaim
import ScopeChain.Script
import Std.Data.TreeMap.Basic

/-!
The state of a running script: the world, the registers, the environment if there is one, and the
transcript so far.  Here are the readings of references and expressions, which can fail, and the
elementary changes.
-/

namespace ScopeChain

open Script

/-- The state of a running script. -/
structure Session where
  world : World
  environment : Option EnvironmentId
  /-- The number of guards of the environment that are there. -/
  guards : Nat
  scopes : Std.TreeMap String Scope
  values : Std.TreeMap String Value
  /-- The number of payloads that were made. -/
  allocations : Nat
  transcript : Array Entry
deriving Inhabited

namespace Session

/-- The state before any step, without an environment. -/
def empty : Session :=
  ⟨.empty, none, 0, ∅, ∅, 0, #[]⟩

/-! ### References and expressions -/

def requireEnvironmentId (s : Session) : Except Fault EnvironmentId :=
  match s.environment with
  | some e => .ok e
  | none => .error .environmentGone

def requireEnvironment (s : Session) : Except Fault Environment :=
  match s.environment.bind s.world.environment? with
  | some env => .ok env
  | none => .error .environmentGone

/-- The scope that a reference names. -/
def scope (s : Session) : ScopeRef → Except Fault Scope
  | .global => s.requireEnvironment.map Environment.global
  | .current => s.requireEnvironment.map Environment.current
  | .captured r =>
      match (s.values[r]?).bind Value.closure? with
      | some f => .ok f.captured
      | none => .error .noScope
  | .register r =>
      match s.scopes[r]? with
      | some sc => .ok sc
      | none => .error .noScope

/-- The scope that a step names, if it names one. -/
def namedScope (s : Session) : Option ScopeRef → Except Fault (Option Scope)
  | some r => (s.scope r).map some
  | none => .ok none

/-- The named scope of a step that needs one. -/
def required : Option Scope → Except Fault Scope
  | some sc => .ok sc
  | none => .error .noScope

/-- The place of a step: the named scope, or else the current one of the environment. -/
def placeOf (s : Session) : Option Scope → Except Fault Place
  | some sc => .ok (.scope sc)
  | none => s.requireEnvironmentId.map Place.current

/-- A value inside `n` lists of one item, and the number of payloads made then. -/
def nest (v : Value) (allocations : Nat) : Nat → Value × Nat
  | 0 => (v, allocations)
  | n + 1 => nest (.list ⟨allocations⟩ [v]) (allocations + 1) n

mutual

/-- The value of an expression when `allocations` payloads were made before, and the number of those
made then. -/
def evaluateFrom (s : Session) (allocations : Nat) : Expr → Except Fault (Value × Nat)
  | .void => .ok (.void, allocations)
  | .bool b => .ok (.bool b, allocations)
  | .int n => .ok (.int n, allocations)
  | .float x => .ok (.float x, allocations)
  | .text t => .ok (.text ⟨allocations⟩ t, allocations + 1)
  | .list items =>
      match evaluateItems s allocations items with
      | .ok (vs, allocations) => .ok (.list ⟨allocations⟩ vs, allocations + 1)
      | .error f => .error f
  | .function name params body r =>
      match s.scope r with
      | .ok sc => .ok (.function ⟨name, params, body, sc⟩, allocations)
      | .error f => .error f
  | .builtin name => .ok (.builtin name, allocations)
  | .register r =>
      match s.values[r]? with
      | some v => .ok (v, allocations)
      | none => .error .noValue
  | .nested n item =>
      match evaluateFrom s allocations item with
      | .ok (v, allocations) => .ok (nest v allocations n)
      | .error f => .error f
  | .invalid => .error .badValue

/-- The values of expressions, from left to right. -/
def evaluateItems (s : Session) (allocations : Nat) :
    List Expr → Except Fault (List Value × Nat)
  | [] => .ok ([], allocations)
  | item :: rest =>
      match evaluateFrom s allocations item with
      | .error f => .error f
      | .ok (v, allocations) =>
          match evaluateItems s allocations rest with
          | .error f => .error f
          | .ok (vs, allocations) => .ok (v :: vs, allocations)

end

/-- The value of an expression, and the session after the payloads of it are made. -/
def evaluate (s : Session) (x : Expr) : Except Fault (Value × Session) :=
  match s.evaluateFrom s.allocations x with
  | .ok (v, allocations) => .ok (v, { s with allocations })
  | .error f => .error f

/-! ### Elementary changes -/

/-- Move the reported events to the transcript. -/
def flush : Session → Session
  | ⟨⟨store, environments, log⟩, environment, guards, scopes, values, allocations, transcript⟩ =>
      ⟨⟨store, environments, #[]⟩, environment, guards, scopes, values, allocations,
        log.foldl (fun t e => t.push (.event e)) transcript⟩

/-- Write an answer to the transcript, after the events before it. -/
def reply (s : Session) (a : Answer) : Session :=
  let s := s.flush
  { s with transcript := s.transcript.push (.answer a) }

def act : Session → Action → Session × Result
  | ⟨world, environment, guards, scopes, values, allocations, transcript⟩, a =>
      match world.perform a with
      | (world, r) => (⟨world, environment, guards, scopes, values, allocations, transcript⟩, r)

/-- Put a scope into a register, if one is named. -/
def setScope (s : Session) (dest : Option String) (sc : Scope) : Session :=
  match dest with
  | some r => { s with scopes := s.scopes.insert r sc }
  | none => s

/-- Put a value into a register, if one is named. -/
def setValue (s : Session) (dest : Option String) (v : Value) : Session :=
  match dest with
  | some r => { s with values := s.values.insert r v }
  | none => s

/-- Put a scope into a register and answer its depth. -/
def keepScope (s : Session) (dest : Option String) (sc : Scope) : Session :=
  (s.setScope dest sc).reply (.depth (s.world.store.depth sc))

/-- Put a value into a register and answer it. -/
def keepValue (s : Session) (dest : Option String) (v : Value) : Session :=
  (s.setValue dest v).reply (.value v)

/-- The number of entered scopes, as an answer. -/
def sizeAnswer (s : Session) : Answer :=
  match s.requireEnvironment with
  | .ok env => .size env.size
  | .error f => .fault f

/-- Whether the last entry of the transcript says why a step failed. -/
def lastFailed (s : Session) : Bool :=
  s.transcript.back?.any Entry.isFailure

/-! ### Handles -/

/-- The scopes to which the session and its environment hold handles. -/
def heldScopes (s : Session) : List Scope :=
  s.scopes.values ++
    match s.requireEnvironment with
    | .ok env => env.global :: env.stack
    | .error _ => []

/-- Drop handles that the session held, and reclaim what only they kept. -/
def dropHandles (s : Session) (scopes : List Scope) (values : List Value) : Session :=
  let census := Census.ofStore s.world.store s.allocations (scopes ++ s.heldScopes)
    (values ++ s.values.values)
  { s with world.store := (s.world.store.reclaim census scopes values).1 }

end Session

end ScopeChain
