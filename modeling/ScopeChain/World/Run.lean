import ScopeChain.World

/-!
Runs in a world.  A run begins with a global scope of its own.  Entering a block enters a child of
the current scope; entering a call enters a child of the scope that the called function captured, so
that names in the call resolve through the function and not through its caller.  The end of a run
empties its global scope.
-/

namespace ScopeChain

namespace World

def environment? (w : World) (e : EnvironmentId) : Option Environment :=
  w.environments[e.index]?.join

def updateEnvironment (w : World) (e : EnvironmentId) (change : Environment → Environment) :
    World :=
  { w with environments := w.environments.modify e.index (·.map change) }

/-- Begin a run with a global scope of its own. -/
def newEnvironment (w : World) (config : Config) : World × EnvironmentId :=
  match w.newGlobal config.policy with
  | (⟨store, environments, log⟩, s) =>
      let e := ⟨environments.size⟩
      (⟨store, environments.push (some (.start s config)),
          log.push (.environmentCreated config.policy config.maxDepth)⟩, e)

/-- Enter a new child of `parent` in the environment `env`, whose handle is `e`. -/
def enterChildOf (w : World) (e : EnvironmentId) (env : Environment) (parent : Scope) :
    World × Except Error Scope :=
  match env.config.exceeded? (w.store.depth parent) with
  | some limit => (w.report (.depthLimitReached limit), .error (.tooDeep limit))
  | none =>
      match w.newScope (some parent) with
      | (w, s) => (w.updateEnvironment e (·.enter s), .ok s)

/-- End a run: leave every scope but the global one and empty that.  The number of the bindings that
it had is reported and returned.  A run that is over does not end again. -/
def endRun (w : World) (e : EnvironmentId) : World × Nat :=
  match w.environment? e with
  | none => (w, 0)
  | some env =>
      if env.finished then (w, 0)
      else
        let released := (w.store.bindings env.global).size
        let w := w.updateEnvironment e Environment.close
        ({ w with
            store := w.store.clear env.global
            log := w.log.push (.environmentTornDown released) }, released)

/-- Give up an environment; its run ends if it is not over. -/
def discard (w : World) (e : EnvironmentId) : World :=
  match w.endRun e with
  | (w, _) => { w with environments := w.environments.setIfInBounds e.index none }

/-- End a run and give up its environment. -/
def finish (w : World) (e : EnvironmentId) : World × Nat :=
  match w.endRun e with
  | (w, released) => (w.discard e, released)

/-- Restore what a guard keeps. -/
def restore (w : World) (g : Guard) : World :=
  w.updateEnvironment g.environment (·.leaveAbove g.base)

end World

end ScopeChain
