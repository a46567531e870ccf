import ScopeChain.Proofs.EnteredScopes
import ScopeChain.Proofs.History

/-!
One operation in two worlds.  Where a place leads to the same scope in both, an operation there gives
the same answer and makes the same change as soon as the stores agree in what the operation reads.
-/

namespace ScopeChain.World

theorem get_snd (w : World) (s : Scope) (n : Name) :
    (w.get s n).2 = match w.store.lookup s n with
      | some v => .ok v
      | none => .error (.undefined n) := by
  unfold get
  cases w.store.lookup s n <;> rfl

/-! ### Places -/

theorem scopeAt?_current {w : World} {e : EnvironmentId} {env : Environment}
    (he : w.environment? e = some env) : w.scopeAt? (.current e) = some env.current := by
  rw [scopeAt?, he]
  rfl

theorem scopeAt?_global {w : World} {e : EnvironmentId} {env : Environment}
    (he : w.environment? e = some env) : w.scopeAt? (.global e) = some env.global := by
  rw [scopeAt?, he]
  rfl

variable {w₁ w₂ : World} {p₁ p₂ : Place} {e₁ e₂ : EnvironmentId} {env₁ env₂ : Environment}

theorem scopeAt?_scope_congr {s : Scope} (h : w₁.store.isLive s = w₂.store.isLive s) :
    w₁.scopeAt? (.scope s) = w₂.scopeAt? (.scope s) := by
  simp only [scopeAt?, h]

theorem changeAt_congr {change₁ change₂ : Scope → Change}
    (hplace : w₁.scopeAt? p₁ = w₂.scopeAt? p₂)
    (hchange : ∀ s, w₂.scopeAt? p₂ = some s → change₁ s = change₂ s) :
    w₁.changeAt p₁ change₁ = w₂.changeAt p₂ change₂ := by
  rw [changeAt, changeAt, hplace]
  cases hs : w₂.scopeAt? p₂ with
  | none => rfl
  | some s => exact hchange s hs

/-! ### Answers -/

theorem answer_performAt_congr {operation : World → Scope → World × Result}
    (hplace : w₁.scopeAt? p₁ = w₂.scopeAt? p₂)
    (hoperation : ∀ s, w₂.scopeAt? p₂ = some s → (operation w₁ s).2 = (operation w₂ s).2) :
    (w₁.performAt p₁ operation).2 = (w₂.performAt p₂ operation).2 := by
  unfold performAt
  rw [hplace]
  cases hs : w₂.scopeAt? p₂ with
  | none => rfl
  | some s => exact hoperation s hs

theorem answer_assign_congr {n : Name} {v : Value} (hplace : w₁.scopeAt? p₁ = w₂.scopeAt? p₂)
    (houtcome : ∀ s, w₂.scopeAt? p₂ = some s →
      (w₁.store.assign s n v).2 = (w₂.store.assign s n v).2) :
    (w₁.perform (.assign p₁ n v)).2 = (w₂.perform (.assign p₂ n v)).2 := by
  refine answer_performAt_congr hplace fun s hs => ?_
  have hsame : (w₁.assign s n v).2 = (w₂.assign s n v).2 := by
    rw [assign_snd, assign_snd, houtcome s hs]
  generalize w₁.assign s n v = r₁ at hsame ⊢
  generalize w₂.assign s n v = r₂ at hsame ⊢
  obtain ⟨_, result⟩ := r₁
  obtain ⟨_, result'⟩ := r₂
  obtain rfl : result = result' := hsame
  cases result <;> rfl

theorem answer_get_congr {n : Name} (hplace : w₁.scopeAt? p₁ = w₂.scopeAt? p₂)
    (hlookup : ∀ s, w₂.scopeAt? p₂ = some s → w₁.store.lookup s n = w₂.store.lookup s n) :
    (w₁.perform (.get p₁ n)).2 = (w₂.perform (.get p₂ n)).2 := by
  refine answer_performAt_congr hplace fun s hs => ?_
  have hsame : (w₁.get s n).2 = (w₂.get s n).2 := by
    rw [get_snd, get_snd, hlookup s hs]
  generalize w₁.get s n = r₁ at hsame ⊢
  generalize w₂.get s n = r₂ at hsame ⊢
  obtain ⟨_, result⟩ := r₁
  obtain ⟨_, result'⟩ := r₂
  obtain rfl : result = result' := hsame
  cases result <;> rfl

/-! ### Entering -/

/-- Entering a child of the same scope takes the same course in two worlds. -/
theorem performEntry_congr (he₁ : w₁.environment? e₁ = some env₁)
    (he₂ : w₂.environment? e₂ = some env₂) (hstore : w₁.store = w₂.store)
    (hconfig : env₁.config = env₂.config) (hplace : w₁.scopeAt? p₁ = w₂.scopeAt? p₂) :
    (w₁.performEntry e₁ p₁ fun _ => .done).2 = (w₂.performEntry e₂ p₂ fun _ => .done).2 ∧
      w₁.entry e₁ p₁ = w₂.entry e₂ p₂ ∧
      (((w₁.performEntry e₁ p₁ fun _ => .done).2 ≠ .done ∧
          w₁.entrance e₁ p₁ = .none ∧ w₂.entrance e₂ p₂ = .none) ∨
        ((w₁.performEntry e₁ p₁ fun _ => .done).2 = .done ∧
          w₁.entrance e₁ p₁ = .entered e₁ w₁.store.next ∧
          w₂.entrance e₂ p₂ = .entered e₂ w₁.store.next)) := by
  cases hs : w₂.scopeAt? p₂ with
  | none =>
      rw [hs] at hplace
      rw [performEntry_of_absent (.inr hplace), performEntry_of_absent (.inr hs)]
      simp [entry, entrance, hplace, hs, he₁, he₂]
  | some s =>
      rw [hs] at hplace
      rw [performEntry_eq he₁ hplace, performEntry_eq he₂ hs]
      simp only [entry, entrance, hplace, hs, he₁, he₂, hstore, hconfig]
      cases env₂.config.exceeded? (w₂.store.depth s) with
      | some limit => simp
      | none => simp

end ScopeChain.World
