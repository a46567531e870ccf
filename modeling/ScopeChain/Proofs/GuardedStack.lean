import ScopeChain.Proofs.EnteredScopes
import ScopeChain.Proofs.Origins

/-!
Guards.  A guard knows how many scopes were entered when it was taken, and restoring it leaves the
scopes above that number.  Whatever ran under the guard, the stack is then the one from before as
long as no scope below the guard was left; a scope that was left is not entered again.
-/

namespace ScopeChain

/-- The operation that takes a guard: it enters a block or, given a captured scope, a call. -/
def Action.guarding (e : EnvironmentId) : Option Scope → Action
  | none => .guardBlock e
  | some captured => .guardCall e captured

namespace World

theorem base_of_guarding {w : World} {e : EnvironmentId} {captured : Option Scope} {g : Guard}
    (h : (w.perform (.guarding e captured)).2 = .guard g) :
    ∃ env, w.environment? e = some env ∧ g = ⟨e, env.size⟩ ∧
      (w.perform (.guarding e captured)).1.environment? e = some (env.enter w.store.next) := by
  have hentry : ∃ parent, w.perform (.guarding e captured) =
      w.performEntry e parent fun env => .guard ⟨e, env.size⟩ := by
    cases captured with
    | none => exact ⟨.current e, rfl⟩
    | some captured => exact ⟨.scope captured, rfl⟩
  obtain ⟨parent, hentry⟩ := hentry
  rw [hentry] at h ⊢
  obtain ⟨env, s, he, -, heq⟩ :=
    entered_of_performEntry (by rw [h]; rintro ⟨⟩) (by rw [h]; rintro _ ⟨⟩)
  rw [heq] at h ⊢
  exact ⟨env, he, (Result.guard.inj h).symm, environment?_entered he s⟩

theorem environment?_restore {w : World} {e : EnvironmentId} {env : Environment}
    (he : w.environment? e = some env) (k : Nat) :
    (w.perform (.restore ⟨e, k⟩)).1.environment? e = some (env.leaveAbove k) := by
  rw [environment?_perform he]
  exact if_pos rfl

/-- Restoring a guard after any run under it brings the number of entered scopes down to what it was
before the guard was taken, and not up to it. -/
theorem size_of_restore (before body : List Action) (e : EnvironmentId) (captured : Option Scope)
    {g : Guard} {reached : Environment}
    (hguard : ((World.empty.performAll before).1.perform (.guarding e captured)).2 = .guard g)
    (hreached : (((World.empty.performAll before).1.perform (.guarding e captured)).1.performAll
      body).1.environment? e = some reached) :
    let w := (World.empty.performAll before).1
    let after := ((((w.perform (.guarding e captured)).1.performAll body).1).perform (.restore g)).1
    ∃ env env', w.environment? e = some env ∧ after.environment? e = some env' ∧
      env'.size = min reached.size env.size ∧ (env'.size = env.size ↔ env.size ≤ reached.size) := by
  intro w after
  obtain ⟨env, henv, rfl, -⟩ := base_of_guarding hguard
  -- The global scope is never left: restoring keeps one scope even where the guard asks for none.
  have hsize : 1 ≤ env.size := (grounded_of_run before e env henv).length_le
  have hrestored : (reached.leaveAbove env.size).size = min reached.size env.size := by
    rw [Environment.size_leaveAbove, Nat.max_eq_left hsize]
  refine ⟨env, _, henv, environment?_restore hreached env.size, hrestored, ?_⟩
  rw [hrestored]
  omega

/-- A guard restored over a block left open and one that was left. -/
theorem size_of_restore_after_blocks :
    let before : List Action := [.newEnvironment {}, .enterBlock ⟨0⟩]
    let body : List Action := [.enterBlock ⟨0⟩, .enterBlock ⟨0⟩, .leave ⟨0⟩]
    let w := (World.empty.performAll before).1
    let after := (((w.perform (.guarding ⟨0⟩ none)).1.performAll body).1.perform
      (.restore ⟨⟨0⟩, 2⟩)).1
    (w.perform (.guarding ⟨0⟩ none)).2 = .guard ⟨⟨0⟩, 2⟩ ∧
      ∃ env env', w.environment? ⟨0⟩ = some env ∧ after.environment? ⟨0⟩ = some env' ∧
        env'.size = env.size := by
  intro before body w after
  have hreached : ((w.perform (.guarding ⟨0⟩ none)).1.performAll body).1.environment? ⟨0⟩ =
      some ⟨[⟨3⟩, ⟨2⟩, ⟨1⟩, ⟨0⟩], ⟨0⟩, {}, false⟩ := rfl
  have henv : w.environment? ⟨0⟩ = some ⟨[⟨1⟩, ⟨0⟩], ⟨0⟩, {}, false⟩ := rfl
  obtain ⟨env, env', he, hafter, -, hiff⟩ := size_of_restore before body ⟨0⟩ none rfl hreached
  obtain rfl := Option.some.inj (henv.symm.trans he)
  exact ⟨rfl, _, env', he, hafter, hiff.mpr (by decide)⟩

/-- A block that is left from under a guard taken inside it stays left when the guard is restored. -/
theorem block_left_under_guard :
    let w := (World.empty.performAll [.newEnvironment {}, .enterBlock ⟨0⟩]).1
    let after := ((w.perform (.guarding ⟨0⟩ none)).1.performAll
      [.leave ⟨0⟩, .leave ⟨0⟩, .restore ⟨⟨0⟩, 2⟩]).1
    (w.perform (.guarding ⟨0⟩ none)).2 = .guard ⟨⟨0⟩, 2⟩ ∧
      (w.environment? ⟨0⟩).map Environment.size = some 2 ∧
      (after.environment? ⟨0⟩).map Environment.size = some 1 :=
  ⟨rfl, rfl, rfl⟩

/-- A run under a guard that leaves no scope from before the guard may break off anywhere: the guard
then gives back the environment as it was, stack and all, and takes back nothing that was written.
The run before the guard is any run, also one under other guards. -/
theorem stack_given_back (before body : List Action) (e : EnvironmentId) (captured : Option Scope)
    {g : Guard}
    (hguard : ((World.empty.performAll before).1.perform (.guarding e captured)).2 = .guard g)
    (hkeeps : ((World.empty.performAll before).1.perform (.guarding e captured)).1.keepsEntered e
      g.base body = true) :
    let w := (World.empty.performAll before).1
    let inside := (w.perform (.guarding e captured)).1
    ∃ env, w.environment? e = some env ∧ env.size = g.base ∧
      ∀ part, part <+: body →
        let ended := (inside.performAll part).1
        let after := (ended.perform (.restore g)).1
        after.environment? e = some env ∧ after.store = ended.store ∧
          ∀ s f, w.store.frame? s = some f → ∃ f', after.store.frame? s = some f' ∧
            f'.parent = f.parent ∧ f'.depth = f.depth ∧ f'.policy = f.policy := by
  intro w inside
  have h : w.Sound := sound_of_run before
  obtain ⟨env, henv, rfl, hinside⟩ := base_of_guarding hguard
  have hne : env.stack ≠ [] :=
    (grounded_of_run before e env henv).ne_nil (List.cons_ne_nil _ _)
  refine ⟨env, henv, rfl, fun part hpart => ?_⟩
  intro ended after
  -- Whatever the body enters and leaves, the stack from before stays the lower end of its own.
  obtain ⟨env', henv', hbase, hglobal, hconfig, hfinished⟩ :=
    suffix_performAll hinside (List.suffix_cons _ _) (keepsEntered_of_part hpart hkeeps)
  have hstack : (env'.leaveAbove env.size).stack = env.stack :=
    Environment.stack_leaveAbove hbase hne
  have hsame : env'.leaveAbove env.size = env := by
    calc env'.leaveAbove env.size
        = ⟨(env'.leaveAbove env.size).stack, env'.global, env'.config, env'.finished⟩ := rfl
      _ = env := by rw [hstack, hglobal, hconfig, hfinished]; rfl
  have hgrows : w.store.Grows after.store :=
    (h.grows_perform _).trans ((h.perform _).grows_performAll part)
  exact ⟨(environment?_restore henv' env.size).trans (congrArg _ hsame), rfl,
    fun s f => hgrows.frame?⟩

/-- A call under a guard in a block, with a definition, a guard inside that leaves a scope to be left
by it, and a read that fails. -/
theorem stack_given_back_after_failure :
    let before : List Action := [.newEnvironment {}, .enterBlock ⟨0⟩]
    let body : List Action := [.define (.current ⟨0⟩) ⟨"x"⟩ .void .mutable, .guardBlock ⟨0⟩,
      .enterBlock ⟨0⟩, .leave ⟨0⟩, .restore ⟨⟨0⟩, 3⟩, .enterBlock ⟨0⟩, .get (.current ⟨0⟩) ⟨"y"⟩]
    let w := (World.empty.performAll before).1
    let inside := (w.perform (.guarding ⟨0⟩ (some ⟨0⟩))).1
    (w.perform (.guarding ⟨0⟩ (some ⟨0⟩))).2 = .guard ⟨⟨0⟩, 2⟩ ∧
      inside.keepsEntered ⟨0⟩ 2 body = true ∧
      ∃ env, w.environment? ⟨0⟩ = some env ∧
        ((inside.performAll body).1.perform (.restore ⟨⟨0⟩, 2⟩)).1.environment? ⟨0⟩ = some env := by
  intro before body w inside
  have hkeeps : inside.keepsEntered ⟨0⟩ 2 body = true := by decide
  obtain ⟨env, henv, -, hback⟩ := stack_given_back before body ⟨0⟩ (some ⟨0⟩) rfl hkeeps
  exact ⟨rfl, hkeeps, env, henv, (hback body (List.prefix_refl _)).1⟩

end World

end ScopeChain
