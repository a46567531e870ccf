import ScopeChain.Session

/-!
Commands of a session.  A command reads its references and expressions in a fixed order: the scope
that its step names, then its values, then the environment.  If one of them cannot be read the
command changes nothing and answers that; otherwise it performs its operations and answers what they
gave.
-/

namespace ScopeChain.Session

open Script

/-! ### Series of operations -/

/-- Create `n` scopes, each inside the one before, and give the innermost. -/
def descendFrom (w : World) (s : Scope) : Nat → World × Scope
  | 0 => (w, s)
  | n + 1 =>
      match w.perform (.newChild (.scope s)) with
      | (w, .scope child) => descendFrom w child n
      | (w, _) => (w, s)

/-- The name under which a chain of closures keeps its links. -/
def linkName : Name :=
  ⟨"k"⟩

/-- What links a scope to the one before it: a closure over that, or a list that ends in a list of
the closure.  The two lists are the payloads `payload + 1` and `payload`. -/
def link (previous : Scope) (payload : Nat) (inList : Bool) : Value :=
  let f := .function ⟨none, [], ⟨1⟩, previous⟩
  if inList then .list ⟨payload + 1⟩ [.int 0, .list ⟨payload⟩ [f]] else f

/-- Create `n` children of `base`, each with a link to the one before, and give the last.  The
payloads of the links are numbered from `payload` on. -/
def closureChainFrom (base : Scope) (inList : Bool) (w : World) (previous : Scope)
    (payload : Nat) : Nat → World × Scope × Nat
  | 0 => (w, previous, payload)
  | n + 1 =>
      match w.perform (.newChild (.scope base)) with
      | (w, .scope child) =>
          match w.perform
              (.define (.scope child) linkName (link previous payload inList) .mutable) with
          | (w, _) => closureChainFrom base inList w child (payload + 2) n
      | (w, _) => (w, previous, payload)

/-- Define the names that end in `i`, `i + 1`, …, `n` of them, as these numbers. -/
def fillFrom (place : Place) (name : String) (w : World) (i : Nat) : Nat → World
  | 0 => w
  | n + 1 =>
      match w.perform
          (.define place ⟨name ++ toString i⟩ (.int (Int64.ofNat i)) .mutable) with
      | (w, _) => fillFrom place name w (i + 1) n

/-! ### Answers -/

/-- Put what an operation gave into a register and answer it. -/
def conclude (s : Session) (dest : Option String) : Result → Session
  | .done | .environment _ | .guard _ => s.reply .done
  | .scope sc => s.keepScope dest sc
  | .left none => s.reply (.left none (size s))
  | .left (some sc) => (s.setScope dest sc).reply (.left (some sc) (size s))
  | .value v | .found (some v) => s.keepValue dest v
  | .found none => s.reply .nothing
  | .flag b => s.reply (.flag b)
  | .mutability m => s.reply (.mutability m)
  | .released n => s.reply (.released n)
  | .failed e => s.reply (.error e)
  | .absent => s.reply (.fault .environmentGone)
where
  /-- The number of entered scopes. -/
  size (s : Session) : Nat :=
    match s.requireEnvironment with
    | .ok env => env.size
    | .error _ => 0

/-- Perform an operation and answer what it gives. -/
def operate (s : Session) (a : Action) (dest : Option String) : Session :=
  match s.act a with
  | (s, r) => s.conclude dest r

def description (st : Store) (sc : Scope) : Description where
  depth := st.depth sc
  isGlobal := st.isGlobal sc
  policy := st.policy sc
  bindings := (st.bindings sc).toList
  debug := (st.scopeShape sc).line
  pretty := (st.scopeShape sc).pretty

def stateOf (st : Store) (env : Environment) : EnvironmentState where
  size := env.size
  current := env.current
  currentDepth := st.depth env.current
  global := env.global
  config := env.config
  names := st.names env.current

/-- Answer a scope, and put it into a register if there is one. -/
def giveScope (s : Session) (dest : Option String) : Option Scope → Session
  | some sc => (s.setScope dest sc).reply (.scope (some sc))
  | none => s.reply (.scope none)

/-! ### The environment -/

/-- Fail while a guard of the environment is there. -/
def requireUnguarded (s : Session) : Except Fault Unit :=
  if s.guards = 0 then .ok () else .error .environmentBorrowed

/-- Give up the environment, if there is one. -/
def discardEnvironment (s : Session) : Session :=
  match s.environment with
  | none => s
  | some e => { (s.act (.discard e)).1 with environment := none }

def beginEnvironment (s : Session) (config : Config) : Session :=
  match s.act (.newEnvironment config) with
  | (s, .environment e) => { s with environment := some e }
  | (s, _) => s

/-! ### Commands -/

/-- Carry out a command at the scope that its step names, when its references and expressions can be
read. -/
def perform (s : Session) (on : Option Scope) : Command → Except Fault Session
  | .newScope dest =>
      match on with
      | some sc => .ok (s.operate (.newChild (.scope sc)) dest)
      | none => .ok (s.operate .newScope dest)
  | .newGlobal dest => .ok (s.operate .newScope dest)
  | .newGlobalWith policy dest => .ok (s.operate (.newGlobal policy) dest)
  | .child dest => do
      let sc ← required on
      return s.operate (.newChild (.scope sc)) dest
  | .alias dest => do
      let sc ← required on
      return s.keepScope dest sc
  | .descend n dest => do
      let sc ← required on
      let (world, last) := descendFrom s.world sc n
      return { s with world }.keepScope dest last
  | .closureChain n inList dest => do
      let sc ← required on
      let (world, last, allocations) := closureChainFrom sc inList s.world sc s.allocations n
      return { s with world, allocations }.keepScope dest last
  | .parent dest => do
      let sc ← required on
      return s.giveScope dest (s.world.store.parent? sc)
  | .root dest => do
      let sc ← required on
      return s.giveScope dest (some (s.world.store.root sc))
  | .chain => do
      let sc ← required on
      let store := s.world.store
      return s.reply (.chain ((store.chain sc).map fun t => (t, store.depth t)))
  | .identify => do
      let sc ← required on
      return s.giveScope none (some sc)
  | .compareScopes other => do
      let sc ← required on
      let sc' ← s.scope other
      return s.reply (.sameScope (sc == sc'))
  | .describe => do
      let sc ← required on
      return s.reply (.description (description s.world.store sc))
  | .listing => do
      let sc ← required on
      return s.reply (.listing (.ofChain s.world.store sc))
  | .dropScope r =>
      match s.scopes[r]? with
      | none => .ok (s.reply (.dropped false))
      | some sc =>
          .ok (({ s with scopes := s.scopes.erase r }.dropHandles [sc] []).reply (.dropped true))
  | .dropValue r =>
      match s.values[r]? with
      | none => .ok (s.reply (.dropped false))
      | some v =>
          .ok (({ s with values := s.values.erase r }.dropHandles [] [v]).reply (.dropped true))
  | .define n x m => do
      let (v, s) ← s.evaluate x
      let place ← s.placeOf on
      return s.operate (.define place n v m) none
  | .defineGlobal n x => do
      let (v, s) ← s.evaluate x
      let e ← s.requireEnvironmentId
      return s.operate (.define (.global e) n v .mutable) none
  | .assign n x => do
      let (v, s) ← s.evaluate x
      let place ← s.placeOf on
      return s.operate (.assign place n v) none
  | .fill name n =>
      -- Without a name to define there is no use for a place.
      if n = 0 then .ok (s.reply .done)
      else do
        let place ← s.placeOf on
        return { s with world := fillFrom place name s.world 0 n }.reply .done
  | .get n dest => do
      let place ← s.placeOf on
      return s.operate (.get place n) dest
  | .lookup n dest => do
      let place ← s.placeOf on
      return s.operate (.lookup place n) dest
  | .contains n => do
      let place ← s.placeOf on
      return s.operate (.contains place n) none
  | .binds n => do
      let sc ← required on
      return s.operate (.binds (.scope sc) n) none
  | .mutability n => do
      let sc ← required on
      return s.operate (.mutability (.scope sc) n) none
  | .newEnvironment config => do
      s.requireUnguarded
      return (s.discardEnvironment.beginEnvironment config).reply .done
  | .dropEnvironment => do
      s.requireUnguarded
      return s.discardEnvironment.reply .done
  | .finish => do
      s.requireUnguarded
      let e ← s.requireEnvironmentId
      let (s, r) := s.act (.finish e)
      return { s with environment := none }.conclude none r
  | .state => do
      let env ← s.requireEnvironment
      return s.reply (.state (stateOf s.world.store env))
  | .enterBlock => do
      let e ← s.requireEnvironmentId
      return s.operate (.enterBlock e) none
  | .enterCall captured => do
      let sc ← s.scope captured
      let e ← s.requireEnvironmentId
      return s.operate (.enterCall e sc) none
  | .leave dest => do
      let e ← s.requireEnvironmentId
      return s.operate (.leave e) dest
  | .capture dest => do
      let e ← s.requireEnvironmentId
      return s.operate (.capture e) dest
  | .closure name params body dest => do
      let e ← s.requireEnvironmentId
      return s.operate (.closure e name params body) dest
  | .bindValue x dest => do
      let (v, s) ← s.evaluate x
      return s.keepValue dest v
  | .inspect x => do
      let (v, s) ← s.evaluate x
      return s.reply (.inspection (s.world.store.inspect v))
  | .compareValues x y => do
      let (v, s) ← s.evaluate x
      let (w, s) ← s.evaluate y
      return s.reply (.comparison (v == w) (w == v) (v.samePayload? w))
  | .invalid => .error .badStep

/-- Carry out a command at the scope that its step names, or answer why that cannot be done. -/
def command (s : Session) (on : Option ScopeRef) (c : Command) : Session :=
  match s.namedScope on with
  | .error f => s.reply (.fault f)
  | .ok on =>
      match s.perform on c with
      | .ok s => s
      | .error f => s.reply (.fault f)

end ScopeChain.Session
