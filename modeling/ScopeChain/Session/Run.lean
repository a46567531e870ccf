import ScopeChain.Session.Command

/-!
Runs of scripts.  A guarded block restores the entered scopes when it ends, be it by its last step,
by a failure or by a panic that passes through it.  A panic ends every block up to the nearest
attempt.  At the end of a script the environment is given up.
-/

namespace ScopeChain.Session

open Script

/-- How a list of steps ended. -/
structure Ending where
  /-- The number of steps that were run. -/
  ran : Nat
  /-- The message of the panic that ended them. -/
  panic : Option String
deriving DecidableEq, Inhabited, Repr

/-- The operation that enters a guarded block. -/
def entrance (s : Session) : Entrance → Except Fault Action
  | .block => s.requireEnvironmentId.map Action.guardBlock
  | .call captured => do
      let sc ← s.scope captured
      let e ← s.requireEnvironmentId
      return .guardCall e sc

/-- Begin a guarded block, and answer with the number of entered scopes and the new depth. -/
def beginGuarded (s : Session) : Session :=
  match s.requireEnvironment with
  | .ok env =>
      { s with guards := s.guards + 1 }.reply
        (.entered env.size (s.world.store.depth env.current))
  | .error f => s.reply (.fault f)

/-- End a guarded block; the end is answered unless a panic passes through. -/
def endGuarded (s : Session) (g : Guard) (ending : Ending) : Session :=
  let s := { (s.act (.restore g)).1 with guards := s.guards - 1 }
  match ending.panic, s.requireEnvironment with
  | none, .ok env => s.reply (.restored env.size ending.ran)
  | none, .error f => s.reply (.fault f)
  | some _, _ => s

/-- End an attempt. -/
def endAttempt (s : Session) (ending : Ending) : Session :=
  let s := match ending.panic with
    | none => s.reply (.ran ending.ran)
    | some message => s.reply (.panicked message)
  s.reply s.sizeAnswer

mutual

/-- Run one step; the message is that of a panic that goes on outwards. -/
def step (s : Session) : Step → Session × Option String
  | .command on c => (s.command on c, none)
  | .panic on message =>
      match s.namedScope on with
      | .error f => (s.reply (.fault f), none)
      | .ok _ => (s, some message)
  | .attempt on body =>
      match s.namedScope on with
      | .error f => (s.reply (.fault f), none)
      | .ok _ =>
          match steps s false 0 body with
          | (s, ending) => (s.endAttempt ending, none)
  | .guarded on door untilFailure body =>
      match s.namedScope on *> s.entrance door with
      | .error f => (s.reply (.fault f), none)
      | .ok a =>
          match s.act a with
          | (s, .guard g) =>
              match steps s.beginGuarded untilFailure 0 body with
              | (s, ending) => (s.endGuarded g ending, ending.panic)
          | (s, r) => (s.conclude none r, none)

/-- Run steps after `ran` others, all of them or up to the first that fails. -/
def steps (s : Session) (untilFailure : Bool) (ran : Nat) : List Step → Session × Ending
  | [] => (s, ⟨ran, none⟩)
  | x :: rest =>
      match step s x with
      | (s, some message) => (s, ⟨ran, some message⟩)
      | (s, none) =>
          if untilFailure && s.lastFailed then (s, ⟨ran + 1, none⟩)
          else steps s untilFailure (ran + 1) rest

end

/-- Answer how a script ended, and give up its environment. -/
def close (s : Session) (ending : Ending) : Session :=
  let s := match ending.panic with
    | none => s.reply (.ran ending.ran)
    | some message => s.reply (.panicked message)
  s.discardEnvironment.flush

/-- Run a script in an environment of the given configuration. -/
def run (config : Config) (script : List Step) : Session :=
  match steps (empty.beginEnvironment config) false 0 script with
  | (s, ending) => s.close ending

/-- A session without an environment in which each of the registers holds a global scope of its
own. -/
def withGlobals (registers : List String) : Session :=
  registers.foldl (fun s r =>
    match s.act .newScope with
    | (s, .scope sc) => s.setScope (some r) sc
    | (s, _) => s) empty

end ScopeChain.Session
