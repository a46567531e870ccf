import ScopeChain.Proofs.EnteredScopes
import ScopeChain.Proofs.Origins

/-!
The global scopes of environments.  Each environment that is there is still running, and its global
scope is its own: nothing is around it, and no other environment begins with it.
-/

namespace ScopeChain.World

/-- An environment after an operation was there before it or is the one that the operation begins. -/
theorem environment_cases {w : World} {a : Action} {e : EnvironmentId} {env : Environment}
    (he : (w.perform a).1.environment? e = some env) :
    (∃ before, w.environment? e = some before ∧ before.Continues env) ∨
      ∃ config, a = .newEnvironment config ∧ e.index = w.environments.size ∧
        env = .start w.store.next config := by
  cases hbefore : w.environment? e with
  | some before =>
      exact .inl ⟨before, rfl,
        Move.continues_of_become ((environment?_perform hbefore a).symm.trans he)⟩
  | none =>
      obtain ⟨config, rfl, rfl⟩ := eq_newEnvironment_of_begun (move_of_absent hbefore he)
      refine .inr ⟨config, rfl, ?_, rfl⟩
      rw [environment?, environments_perform, move, Move.apply, Array.getElem?_push] at he
      split at he
      · assumption
      · cases hbefore.symm.trans he

/-- The environments that are there are running, and each has a global scope of its own. -/
structure Separate (w : World) : Prop where
  global : ∀ {e env}, w.environment? e = some env → w.store.parent? env.global = none
  running : ∀ {e env}, w.environment? e = some env → env.finished = false
  injective : ∀ {e e' env env'}, w.environment? e = some env → w.environment? e' = some env' →
    env.global = env'.global → e = e'

theorem separate_empty : World.empty.Separate where
  global h := by cases h
  running h := by cases h
  injective h := by cases h

variable {w : World}

theorem Sound.global_ne_next (h : w.Sound) {e : EnvironmentId} {env : Environment}
    (he : w.environment? e = some env) : env.global ≠ w.store.next :=
  Store.ne_next (h.held he List.mem_cons_self)

theorem Separate.perform (h : w.Separate) (hw : w.Sound) (a : Action) :
    (w.perform a).1.Separate where
  global := by
    intro e env he
    obtain ⟨before, hbefore, hcont⟩ | ⟨config, rfl, -, rfl⟩ := environment_cases he
    · rw [hcont.global, (hw.grows_perform a).parent? (hw.held hbefore List.mem_cons_self)]
      exact h.global hbefore
    · change ((w.store.add (.global config.policy)).1).parent? w.store.next = none
      rw [Store.parent?, Store.frame?_add, if_pos rfl]
      rfl
  running := by
    intro e env he
    obtain ⟨before, hbefore, hcont⟩ | ⟨config, -, -, rfl⟩ := environment_cases he
    · exact hcont.finished.trans (h.running hbefore)
    · rfl
  injective := by
    intro e e' env env' he he' heq
    obtain ⟨before, hbefore, hcont⟩ | ⟨config, -, hindex, rfl⟩ := environment_cases he
    · obtain ⟨before', hbefore', hcont'⟩ | ⟨config', -, -, rfl⟩ := environment_cases he'
      · rw [hcont.global, hcont'.global] at heq
        exact h.injective hbefore hbefore' heq
      · exact absurd (hcont.global ▸ heq) (hw.global_ne_next hbefore)
    · obtain ⟨before', hbefore', hcont'⟩ | ⟨config', -, hindex', rfl⟩ := environment_cases he'
      · exact absurd (hcont'.global ▸ heq.symm) (hw.global_ne_next hbefore')
      · cases e
        cases e'
        exact congrArg EnvironmentId.mk (hindex.trans hindex'.symm)

theorem separate_of_run (actions : List Action) :
    (World.empty.performAll actions).1.Separate := by
  induction actions using List.reverseRecOn with
  | nil => exact separate_empty
  | append_singleton actions a ih =>
      rw [performAll_append]
      exact ih.perform (sound_of_run actions) a

end ScopeChain.World
