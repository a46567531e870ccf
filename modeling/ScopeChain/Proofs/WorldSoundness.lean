import ScopeChain.Action
import ScopeChain.Proofs.Resolution

/-!
The worlds that runs reach.  In each of them the store is sound and the environments hold handles to
scopes that are there.  This is shown of every operation, and so of every run from the empty world.
-/

namespace ScopeChain

/-- The scopes to which an environment holds handles. -/
def Environment.held (env : Environment) : List Scope :=
  env.global :: env.stack

namespace World

/-- The store is sound, and what the environments hold is in it. -/
structure Sound (w : World) : Prop where
  store : w.store.Sound
  held : ∀ {e env s}, w.environment? e = some env → s ∈ env.held → w.store.isLive s = true

theorem sound_empty : World.empty.Sound where
  store := Store.sound_empty
  held h := by cases h

/-! ### Environments -/

theorem environment?_updateEnvironment (w : World) (e e' : EnvironmentId)
    (change : Environment → Environment) :
    (w.updateEnvironment e change).environment? e' =
      if e = e' then (w.environment? e').map change else w.environment? e' := by
  cases e with
  | mk i =>
      cases e' with
      | mk j =>
          simp only [environment?, updateEnvironment, Array.getElem?_modify,
            EnvironmentId.mk.injEq]
          split
          · cases w.environments[j]? <;> rfl
          · rfl

theorem current_mem_held (env : Environment) : env.current ∈ env.held := by
  unfold Environment.current Environment.held
  cases env.stack <;> simp

theorem held_leaveAbove {env : Environment} {k : Nat} {s : Scope}
    (hs : s ∈ (env.leaveAbove k).held) : s ∈ env.held := by
  rcases List.mem_cons.mp hs with rfl | hs
  · exact List.mem_cons_self ..
  · exact List.mem_cons_of_mem _ (List.mem_of_mem_drop hs)

theorem held_leave {env : Environment} {s : Scope} (hs : s ∈ env.leave.held) : s ∈ env.held := by
  unfold Environment.leave at hs
  split at hs
  · rename_i hstack
    rw [Environment.held, hstack]
    simp only [Environment.held, List.mem_cons] at hs ⊢
    tauto
  · exact hs

namespace Sound

variable {w : World}

theorem isLive_scopeAt? (h : w.Sound) {place : Place} {s : Scope} (hs : w.scopeAt? place = some s) :
    w.store.isLive s = true := by
  cases place with
  | scope t =>
      simp only [scopeAt?] at hs
      split at hs
      · rename_i ht
        obtain rfl := Option.some.inj hs
        exact ht
      · cases hs
  | current e =>
      obtain ⟨env, henv, rfl⟩ := Option.map_eq_some_iff.mp hs
      exact h.held henv (current_mem_held env)
  | global e =>
      obtain ⟨env, henv, rfl⟩ := Option.map_eq_some_iff.mp hs
      exact h.held henv (List.mem_cons_self ..)

/-! ### What the operations keep -/

/-- A world with the same environments over a store that lost no scope. -/
theorem of_store (h : w.Sound) {w' : World} (hstore : w'.store.Sound)
    (hlive : ∀ s, w.store.isLive s = true → w'.store.isLive s = true)
    (henv : w'.environments = w.environments) : w'.Sound where
  store := hstore
  held := by
    intro e env s he hs
    rw [environment?, henv] at he
    exact hlive s (h.held he hs)

theorem updateEnvironment (h : w.Sound) (e : EnvironmentId) {change : Environment → Environment}
    (hchange : ∀ {env s}, w.environment? e = some env → s ∈ (change env).held →
      w.store.isLive s = true) : (w.updateEnvironment e change).Sound where
  store := h.store
  held := by
    intro e' env' s he hs
    rw [environment?_updateEnvironment] at he
    split at he
    · rename_i hee
      subst hee
      obtain ⟨env, henv, rfl⟩ := Option.map_eq_some_iff.mp he
      exact hchange henv hs
    · exact h.held he hs

theorem report (h : w.Sound) (e : Event) : (w.report e).Sound :=
  h.of_store h.store (fun _ hs => hs) rfl

theorem add (h : w.Sound) {f : Frame} (hf : (w.store.add f).1.Sound) {w' : World}
    (hstore : w'.store = (w.store.add f).1) (henv : w'.environments = w.environments) :
    w'.Sound := by
  apply h.of_store (hstore ▸ hf) _ henv
  intro s hs
  rw [hstore, Store.isLive, Store.frame?_add]
  split
  · rfl
  · exact hs

theorem rebind (h : w.Sound) (s : Scope) {change : Bindings → Bindings}
    (hchange : ∀ b, b.Faithful → (change b).Faithful) {w' : World}
    (hstore : w'.store = w.store.rebind s change) (henv : w'.environments = w.environments) :
    w'.Sound := by
  apply h.of_store (hstore ▸ h.store.rebind s hchange) _ henv
  intro t ht
  rwa [hstore, Store.isLive_rebind]

end Sound

/-! ### The operations on scopes -/

theorem newScope_some {w : World} {s : Scope} {g : Frame} (hg : w.store.frame? s = some g) :
    (w.newScope (some s)).1.store = (w.store.add (g.inside s)).1 ∧
      (w.newScope (some s)).1.environments = w.environments ∧
      (w.newScope (some s)).2 = w.store.next := by
  simp [newScope, Store.createInside, hg, Store.add]

theorem newGlobal_eq (w : World) (policy : Policy) :
    (w.newGlobal policy).1.store = (w.store.add (.global policy)).1 ∧
      (w.newGlobal policy).1.environments = w.environments ∧
      (w.newGlobal policy).2 = w.store.next :=
  ⟨rfl, rfl, rfl⟩

theorem assign_fst (w : World) (s : Scope) (n : Name) (v : Value) :
    (w.assign s n v).1.store = (w.store.assign s n v).1 ∧
      (w.assign s n v).1.environments = w.environments := by
  unfold assign
  cases h : w.store.assign s n v with
  | mk store outcome => cases outcome <;> simp [h]

theorem assign_snd (w : World) (s : Scope) (n : Name) (v : Value) :
    (w.assign s n v).2 = match (w.store.assign s n v).2 with
      | .updated | .created => .ok ()
      | .immutable => .error (.immutable n)
      | .undeclared => .error (.undeclared n) := by
  unfold assign
  cases h : w.store.assign s n v with
  | mk store outcome => cases outcome <;> simp [h]

namespace Sound

variable {w : World}

theorem newScope_inside (h : w.Sound) {s : Scope} (hs : w.store.isLive s = true) :
    (w.newScope (some s)).1.Sound ∧
      (w.newScope (some s)).1.store.isLive (w.newScope (some s)).2 = true := by
  obtain ⟨g, hg⟩ := Store.isLive_iff.mp hs
  obtain ⟨hstore, henv, hnext⟩ := newScope_some hg
  refine ⟨h.add (h.store.add_inside hg) hstore henv, ?_⟩
  rw [hstore, hnext, Store.isLive, Store.frame?_add, if_pos rfl]
  rfl

theorem newGlobal (h : w.Sound) (policy : Policy) : (w.newGlobal policy).1.Sound :=
  h.add (h.store.add_global policy) rfl rfl

theorem define (h : w.Sound) (s : Scope) (n : Name) (v : Value) (m : Mutability) :
    (w.define s n v m).Sound :=
  h.rebind s (fun _ hb => hb.insert n ⟨v, m⟩) rfl rfl

theorem assign (h : w.Sound) (s : Scope) (n : Name) (v : Value) : (w.assign s n v).1.Sound := by
  obtain ⟨hstore, henv⟩ := w.assign_fst s n v
  rw [h.store.assign_eq] at hstore
  split at hstore
  · split at hstore
    · exact h.rebind _ (fun _ hb => hb.assign n v) hstore henv
    · exact h.of_store (hstore ▸ h.store) (fun _ hs => hstore ▸ hs) henv
  · split at hstore
    · exact h.rebind _ (fun _ hb => hb.insert n ⟨v, .mutable⟩) hstore henv
    · exact h.of_store (hstore ▸ h.store) (fun _ hs => hstore ▸ hs) henv

theorem get (h : w.Sound) (s : Scope) (n : Name) : (w.get s n).1.Sound := by
  unfold World.get
  split
  · exact h
  · exact h.report _

/-! ### The operations on environments -/

theorem newEnvironment (h : w.Sound) (config : Config) : (w.newEnvironment config).1.Sound where
  store := (h.newGlobal config.policy).store
  held := by
    intro e env s he hs
    have hfresh : (w.newGlobal config.policy).1.store.isLive w.store.next = true := by
      rw [(w.newGlobal_eq config.policy).1, Store.isLive, Store.frame?_add, if_pos rfl]
      rfl
    rw [environment?] at he
    change (w.environments.push (some (.start w.store.next config)))[e.index]?.join = some env at he
    rw [Array.getElem?_push] at he
    split at he
    · obtain rfl := Option.some.inj he
      have hsame : s = w.store.next := by
        simpa [Environment.held, Environment.start] using hs
      rw [hsame]
      exact hfresh
    · exact (h.newGlobal config.policy).held he hs

theorem enterChildOf (h : w.Sound) (e : EnvironmentId) (env : Environment) {s : Scope}
    (hs : w.store.isLive s = true) : (w.enterChildOf e env s).1.Sound := by
  unfold World.enterChildOf
  split
  · exact h.report _
  · obtain ⟨hsound, hlive⟩ := h.newScope_inside hs
    apply hsound.updateEnvironment
    intro env' t henv ht
    rw [Environment.held, Environment.enter] at ht
    rcases List.mem_cons.mp ht with rfl | ht
    · exact hsound.held henv (List.mem_cons_self ..)
    · rcases List.mem_cons.mp ht with rfl | ht
      · exact hlive
      · exact hsound.held henv (List.mem_cons_of_mem _ ht)

theorem leave (h : w.Sound) (e : EnvironmentId) : (w.updateEnvironment e Environment.leave).Sound :=
  h.updateEnvironment e fun henv hs => h.held henv (held_leave hs)

theorem restore (h : w.Sound) (g : Guard) : (w.restore g).Sound :=
  h.updateEnvironment _ fun henv hs => h.held henv (held_leaveAbove hs)

theorem endRun (h : w.Sound) (e : EnvironmentId) : (w.endRun e).1.Sound := by
  unfold World.endRun
  split
  · exact h
  · split
    · exact h
    · rename_i env _ _
      have hclosed : (w.updateEnvironment e Environment.close).Sound :=
        h.updateEnvironment e fun henv hs => h.held henv (held_leaveAbove (k := 1) hs)
      exact hclosed.rebind env.global (fun _ _ => Bindings.faithful_empty) rfl rfl

theorem discard (h : w.Sound) (e : EnvironmentId) : (w.discard e).Sound where
  store := (h.endRun e).store
  held := by
    intro e' env s he hs
    rw [environment?] at he
    change ((w.endRun e).1.environments.setIfInBounds e.index none)[e'.index]?.join = some env at he
    rw [Array.getElem?_setIfInBounds] at he
    split at he
    · split at he <;> cases he
    · exact (h.endRun e).held he hs

theorem finish (h : w.Sound) (e : EnvironmentId) : (w.finish e).1.Sound :=
  (h.endRun e).discard e

/-! ### Runs -/

theorem performAt (h : w.Sound) {place : Place} {operation : World → Scope → World × Result}
    (hoperation : ∀ s, w.store.isLive s = true → (operation w s).1.Sound) :
    (w.performAt place operation).1.Sound := by
  unfold World.performAt
  split
  · exact h
  · rename_i s hs
    exact hoperation s (h.isLive_scopeAt? hs)

theorem performEntry (h : w.Sound) (e : EnvironmentId) (parent : Place)
    (answer : Environment → Result) : (w.performEntry e parent answer).1.Sound := by
  unfold World.performEntry
  split
  · rename_i env s _ hs
    have hentered := h.enterChildOf e env (h.isLive_scopeAt? hs)
    split <;> (rename_i heq; rw [heq] at hentered; exact hentered)
  · exact h

theorem perform (h : w.Sound) (a : Action) : (w.perform a).1.Sound := by
  cases a with
  | newScope => exact h.add (h.store.add_global .createGlobal) rfl rfl
  | newGlobal policy => exact h.newGlobal policy
  | newChild parent => exact h.performAt fun s hs => (h.newScope_inside hs).1
  | define place n v m => exact h.performAt fun s _ => h.define s n v m
  | assign place n v =>
      refine h.performAt fun s _ => ?_
      have hassigned := h.assign s n v
      split <;> (rename_i heq; rw [heq] at hassigned; exact hassigned)
  | get place n =>
      refine h.performAt fun s _ => ?_
      have hread := h.get s n
      split <;> (rename_i heq; rw [heq] at hread; exact hread)
  | lookup place n => exact h.performAt fun _ _ => h
  | contains place n => exact h.performAt fun _ _ => h
  | binds place n => exact h.performAt fun _ _ => h
  | mutability place n => exact h.performAt fun _ _ => h
  | newEnvironment config => exact h.newEnvironment config
  | enterBlock e => exact h.performEntry e _ _
  | enterCall e captured => exact h.performEntry e _ _
  | leave e =>
      simp only [World.perform]
      split
      · exact h
      · exact h.leave e
  | guardBlock e => exact h.performEntry e _ _
  | guardCall e captured => exact h.performEntry e _ _
  | restore g => exact h.restore g
  | capture e => exact h.performAt fun _ _ => h
  | closure e name params body =>
      simp only [World.perform]
      split <;> exact h
  | finish e =>
      simp only [World.perform]
      split
      · exact h
      · exact h.finish e
  | discard e => exact h.discard e

theorem performAll (h : w.Sound) (actions : List Action) : (w.performAll actions).1.Sound := by
  induction actions generalizing w with
  | nil => exact h
  | cons a rest ih => exact ih (h.perform a)

end Sound

/-- Every run from the empty world ends in a sound world. -/
theorem sound_of_run (actions : List Action) : (World.empty.performAll actions).1.Sound :=
  sound_empty.performAll actions

end World

end ScopeChain
