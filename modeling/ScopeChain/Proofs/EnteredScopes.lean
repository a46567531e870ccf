import ScopeChain.Proofs.WorldSoundness

/-!
What operations do to environments.  An operation begins an environment or ends one, enters a scope
or leaves some, and the stack of entered scopes only ever changes at its top: either one scope is
put on it or what stays is the lower end of it.
-/

namespace ScopeChain

/-- What an operation does to the environments. -/
inductive Move where
  | none
  | begun (env : Environment)
  | entered (e : EnvironmentId) (s : Scope)
  | left (e : EnvironmentId)
  | restored (g : Guard)
  | ended (e : EnvironmentId)

namespace Move

/-- The environments after a move. -/
def apply (environments : Array (Option Environment)) : Move → Array (Option Environment)
  | none => environments
  | begun env => environments.push (some env)
  | entered e s => environments.modify e.index (·.map (·.enter s))
  | left e => environments.modify e.index (·.map Environment.leave)
  | restored g => environments.modify g.environment.index (·.map (·.leaveAbove g.base))
  | ended e => environments.setIfInBounds e.index .none

/-- What the move makes of the environment `env`, whose handle is `e`. -/
def become (e : EnvironmentId) (env : Environment) : Move → Option Environment
  | none | begun _ => some env
  | entered e' s => if e' = e then some (env.enter s) else some env
  | left e' => if e' = e then some env.leave else some env
  | restored g => if g.environment = e then some (env.leaveAbove g.base) else some env
  | ended e' => if e' = e then .none else some env

end Move

namespace World

/-- The move that entering a child of the scope of a place makes. -/
def entrance (w : World) (e : EnvironmentId) (parent : Place) : Move :=
  match w.environment? e, w.scopeAt? parent with
  | some env, some s =>
      match env.config.exceeded? (w.store.depth s) with
      | some _ => .none
      | none => .entered e w.store.next
  | _, _ => .none

/-- The move that an operation makes. -/
def move (w : World) : Action → Move
  | .newEnvironment config => .begun (.start w.store.next config)
  | .enterBlock e | .guardBlock e => w.entrance e (.current e)
  | .enterCall e captured | .guardCall e captured => w.entrance e (.scope captured)
  | .leave e => .left e
  | .restore g => .restored g
  | .finish e | .discard e => .ended e
  | .newScope | .newGlobal _ | .newChild _ => .none
  | .define _ _ _ _ | .assign _ _ _ | .get _ _ | .lookup _ _ => .none
  | .contains _ _ | .binds _ _ | .mutability _ _ | .capture _ | .closure _ _ _ _ => .none

/-! ### Entering -/

theorem newScope_snd (w : World) (parent : Option Scope) :
    (w.newScope parent).2 = w.store.next := by
  simp only [newScope, Store.createInside]
  split
  · rfl
  · split <;> rfl

theorem newScope_environments (w : World) (parent : Option Scope) :
    (w.newScope parent).1.environments = w.environments := by
  simp only [newScope]

theorem performEntry_eq {w : World} {e : EnvironmentId} {parent : Place} {env : Environment}
    {s : Scope} (he : w.environment? e = some env) (hs : w.scopeAt? parent = some s)
    (answer : Environment → Result) :
    w.performEntry e parent answer =
      match env.config.exceeded? (w.store.depth s) with
      | some limit => (w.report (.depthLimitReached limit), .failed (.tooDeep limit))
      | none =>
          ((w.newScope (some s)).1.updateEnvironment e (·.enter w.store.next), answer env) := by
  simp only [performEntry, he, hs, enterChildOf]
  cases env.config.exceeded? (w.store.depth s) with
  | some limit => rfl
  | none => simp only [newScope_snd]

theorem performEntry_of_absent {w : World} {e : EnvironmentId} {parent : Place}
    (h : w.environment? e = none ∨ w.scopeAt? parent = none) (answer : Environment → Result) :
    w.performEntry e parent answer = (w, .absent) := by
  unfold performEntry
  split
  · rename_i he hs
    obtain h | h := h
    · cases he.symm.trans h
    · cases hs.symm.trans h
  · rfl

theorem entered_of_performEntry {w : World} {e : EnvironmentId} {parent : Place}
    {answer : Environment → Result} (habsent : (w.performEntry e parent answer).2 ≠ .absent)
    (hfailed : ∀ error, (w.performEntry e parent answer).2 ≠ .failed error) :
    ∃ env s, w.environment? e = some env ∧ w.scopeAt? parent = some s ∧
      w.performEntry e parent answer =
        ((w.newScope (some s)).1.updateEnvironment e (·.enter w.store.next), answer env) := by
  cases he : w.environment? e with
  | none =>
      rw [performEntry_of_absent (.inl he)] at habsent
      exact absurd rfl habsent
  | some env =>
      cases hs : w.scopeAt? parent with
      | none =>
          rw [performEntry_of_absent (.inr hs)] at habsent
          exact absurd rfl habsent
      | some s =>
          rw [performEntry_eq he hs] at hfailed ⊢
          cases hlimit : env.config.exceeded? (w.store.depth s) with
          | some limit =>
              rw [hlimit] at hfailed
              exact absurd rfl (hfailed (.tooDeep limit))
          | none => exact ⟨env, s, rfl, rfl, rfl⟩

theorem environment?_entered {w : World} {e : EnvironmentId} {env : Environment}
    (he : w.environment? e = some env) (s : Scope) :
    ((w.newScope (some s)).1.updateEnvironment e (·.enter w.store.next)).environment? e =
      some (env.enter w.store.next) := by
  rw [environment?_updateEnvironment, if_pos rfl, environment?, newScope_environments,
    ← environment?, he]
  rfl

theorem environments_performEntry (w : World) (e : EnvironmentId) (parent : Place)
    (answer : Environment → Result) :
    (w.performEntry e parent answer).1.environments = (w.entrance e parent).apply w.environments := by
  cases he : w.environment? e with
  | none =>
      rw [performEntry_of_absent (.inl he), entrance, he]
      rfl
  | some env =>
      cases hs : w.scopeAt? parent with
      | none =>
          rw [performEntry_of_absent (.inr hs), entrance, he, hs]
          rfl
      | some s =>
          rw [performEntry_eq he hs, entrance, he, hs]
          dsimp only
          cases env.config.exceeded? (w.store.depth s) with
          | some limit => rfl
          | none => simp only [updateEnvironment, newScope_environments, Move.apply]

/-! ### What an operation does to the environments -/

theorem environments_performAt {w : World} (place : Place)
    {operation : World → Scope → World × Result}
    (hoperation : ∀ s, (operation w s).1.environments = w.environments) :
    (w.performAt place operation).1.environments = w.environments := by
  unfold performAt
  split
  · rfl
  · exact hoperation _

theorem slot_of_absent {w : World} {e : EnvironmentId} (he : w.environment? e = none)
    {slot : Option Environment} (hslot : w.environments[e.index]? = some slot) : slot = none := by
  rwa [environment?, hslot] at he

theorem modify_of_absent {w : World} {e : EnvironmentId} (he : w.environment? e = none)
    (change : Environment → Environment) :
    w.environments.modify e.index (·.map change) = w.environments := by
  apply Array.ext_getElem?
  intro i
  rw [Array.getElem?_modify]
  split
  · rename_i hi
    subst hi
    cases hslot : w.environments[e.index]? with
    | none => rfl
    | some slot =>
        rw [slot_of_absent he hslot]
        rfl
  · rfl

theorem setIfInBounds_of_absent {w : World} {e : EnvironmentId} (he : w.environment? e = none) :
    w.environments.setIfInBounds e.index none = w.environments := by
  apply Array.ext_getElem?
  intro i
  rw [Array.getElem?_setIfInBounds]
  split
  · rename_i hi
    subst hi
    cases hslot : w.environments[e.index]? with
    | none => simp [Array.getElem?_eq_none_iff.mp hslot]
    | some slot => simp [slot_of_absent he hslot, (Array.getElem?_eq_some_iff.mp hslot).1]
  · rfl

theorem environments_endRun (w : World) (e : EnvironmentId) :
    (w.endRun e).1.environments.setIfInBounds e.index none =
      w.environments.setIfInBounds e.index none := by
  unfold endRun
  split
  · rfl
  · split
    · rfl
    · apply Array.ext_getElem?
      intro i
      simp only [updateEnvironment, Array.getElem?_setIfInBounds, Array.getElem?_modify,
        Array.size_modify]
      split
      · rfl
      · rfl

/-- An operation changes the environments as its move tells. -/
theorem environments_perform (w : World) (a : Action) :
    (w.perform a).1.environments = (w.move a).apply w.environments := by
  cases a with
  | newScope => exact w.newScope_environments none
  | newGlobal policy => rfl
  | newChild parent => exact environments_performAt parent fun s => w.newScope_environments (some s)
  | define place n v m => exact environments_performAt place fun _ => rfl
  | assign place n v =>
      refine environments_performAt place fun s => ?_
      have henv := (w.assign_fst s n v).2
      split <;> (rename_i heq; rw [heq] at henv; exact henv)
  | get place n =>
      refine environments_performAt place fun s => ?_
      cases hv : w.store.lookup s n with
      | none => rw [get_of_unbound hv]; rfl
      | some v => rw [get_of_lookup hv]
  | lookup place n => exact environments_performAt place fun _ => rfl
  | contains place n => exact environments_performAt place fun _ => rfl
  | binds place n => exact environments_performAt place fun _ => rfl
  | mutability place n => exact environments_performAt place fun _ => rfl
  | newEnvironment config => rfl
  | enterBlock e => exact w.environments_performEntry e _ _
  | enterCall e captured => exact w.environments_performEntry e _ _
  | leave e =>
      cases he : w.environment? e with
      | none =>
          simp only [perform, he]
          exact (modify_of_absent he _).symm
      | some env =>
          simp only [perform, he]
          rfl
  | guardBlock e => exact w.environments_performEntry e _ _
  | guardCall e captured => exact w.environments_performEntry e _ _
  | restore g => rfl
  | capture e => exact environments_performAt _ fun _ => rfl
  | closure e name params body =>
      simp only [perform]
      split <;> rfl
  | finish e =>
      cases he : w.environment? e with
      | none =>
          simp only [perform, he]
          exact (setIfInBounds_of_absent he).symm
      | some env =>
          simp only [perform, he]
          exact ((w.endRun e).1.environments_endRun e).trans (w.environments_endRun e)
  | discard e => exact w.environments_endRun e

theorem index_lt_of_environment? {w : World} {e : EnvironmentId} {env : Environment}
    (he : w.environment? e = some env) : e.index < w.environments.size := by
  by_contra hge
  rw [environment?, Array.getElem?_eq_none (by omega)] at he
  cases he

theorem environment?_perform {w : World} {e : EnvironmentId} {env : Environment}
    (he : w.environment? e = some env) (a : Action) :
    (w.perform a).1.environment? e = (w.move a).become e env := by
  have hchanged : ∀ e' change, (w.environments.modify e'.index (·.map change))[e.index]?.join =
      if e' = e then some (change env) else some env := by
    intro e' change
    have hupdate := w.environment?_updateEnvironment e' e change
    rwa [he] at hupdate
  rw [environment?, environments_perform]
  cases w.move a with
  | none => exact he
  | begun new =>
      have hlt := index_lt_of_environment? he
      rw [Move.apply, Array.getElem?_push, if_neg (by omega)]
      exact he
  | entered e' s => exact hchanged e' _
  | left e' => exact hchanged e' _
  | restored g => exact hchanged g.environment _
  | ended e' =>
      obtain ⟨i⟩ := e
      obtain ⟨j⟩ := e'
      simp only [Move.apply, Move.become, Array.getElem?_setIfInBounds, EnvironmentId.mk.injEq]
      split
      · split <;> rfl
      · exact he

theorem entrance_cases {w : World} {e : EnvironmentId} {parent : Place} {m : Move}
    (h : w.entrance e parent = m) : m = .none ∨ m = .entered e w.store.next := by
  subst h
  unfold entrance
  split
  · split
    · exact .inl rfl
    · exact .inr rfl
  · exact .inl rfl

theorem eq_newEnvironment_of_begun {w : World} {a : Action} {env : Environment}
    (h : w.move a = .begun env) :
    ∃ config, a = .newEnvironment config ∧ env = .start w.store.next config := by
  cases a with
  | newEnvironment config => exact ⟨config, rfl, (Move.begun.inj h).symm⟩
  | enterBlock e => obtain h | h := entrance_cases h <;> cases h
  | enterCall e captured => obtain h | h := entrance_cases h <;> cases h
  | guardBlock e => obtain h | h := entrance_cases h <;> cases h
  | guardCall e captured => obtain h | h := entrance_cases h <;> cases h
  | _ => cases h

theorem ends_of_ended {w : World} {a : Action} {e : EnvironmentId} (h : w.move a = .ended e) :
    a = .finish e ∨ a = .discard e := by
  cases a with
  | finish e' => exact .inl (congrArg Action.finish (Move.ended.inj h))
  | discard e' => exact .inr (congrArg Action.discard (Move.ended.inj h))
  | enterBlock e => obtain h | h := entrance_cases h <;> cases h
  | enterCall e captured => obtain h | h := entrance_cases h <;> cases h
  | guardBlock e => obtain h | h := entrance_cases h <;> cases h
  | guardCall e captured => obtain h | h := entrance_cases h <;> cases h
  | _ => cases h

theorem move_of_absent {w : World} {e : EnvironmentId} {env : Environment} {a : Action}
    (he : w.environment? e = none) (hnew : (w.perform a).1.environment? e = some env) :
    w.move a = .begun env := by
  have hchanged : ∀ (e' : EnvironmentId) change,
      (w.environments.modify e'.index (·.map change))[e.index]?.join = none := by
    intro e' change
    have hupdate := w.environment?_updateEnvironment e' e change
    rw [he, Option.map_none, ite_self] at hupdate
    exact hupdate
  rw [environment?, environments_perform] at hnew
  cases hmove : w.move a with
  | begun new =>
      rw [hmove, Move.apply, Array.getElem?_push] at hnew
      split at hnew
      · rw [Option.some.inj hnew]
      · cases he.symm.trans hnew
  | ended e' =>
      rw [hmove, Move.apply, Array.getElem?_setIfInBounds] at hnew
      split at hnew
      · split at hnew <;> cases hnew
      · cases he.symm.trans hnew
  | none =>
      rw [hmove] at hnew
      cases he.symm.trans hnew
  | entered e' s =>
      rw [hmove] at hnew
      cases (hchanged e' _).symm.trans hnew
  | left e' =>
      rw [hmove] at hnew
      cases (hchanged e' _).symm.trans hnew
  | restored g =>
      rw [hmove] at hnew
      cases (hchanged g.environment _).symm.trans hnew

end World

/-! ### The stack of entered scopes -/

namespace Environment

/-- What an operation may make of an environment: a scope is put on its stack, or the stack that
stays is the lower end of what it was.  Nothing else of the environment changes. -/
structure Continues (before after : Environment) : Prop where
  global : after.global = before.global
  config : after.config = before.config
  finished : after.finished = before.finished
  stack : (∃ s, after.stack = s :: before.stack) ∨ after.stack <:+ before.stack
  nonempty : before.stack ≠ [] → after.stack ≠ []

namespace Continues

theorem refl (env : Environment) : env.Continues env :=
  ⟨rfl, rfl, rfl, .inr (List.suffix_refl _), id⟩

theorem enter (env : Environment) (s : Scope) : env.Continues (env.enter s) :=
  ⟨rfl, rfl, rfl, .inl ⟨s, rfl⟩, fun _ => List.cons_ne_nil _ _⟩

theorem leave (env : Environment) : env.Continues env.leave := by
  unfold Environment.leave
  split
  · rename_i s t rest hstack
    refine ⟨rfl, rfl, rfl, .inr ?_, fun _ => List.cons_ne_nil _ _⟩
    rw [hstack]
    exact List.suffix_cons _ _
  · exact refl env

theorem leaveAbove (env : Environment) (k : Nat) : env.Continues (env.leaveAbove k) := by
  refine ⟨rfl, rfl, rfl, .inr (List.drop_suffix _ _), fun hne => ?_⟩
  have hpos := List.length_pos_iff.mpr hne
  rw [← List.length_pos_iff]
  simp only [Environment.leaveAbove, List.length_drop]
  omega

variable {before after : Environment}

/-- A lower end of the stack is kept for as long as the stack is not shorter. -/
theorem suffix (h : before.Continues after) {base : List Scope} (hbase : base <:+ before.stack)
    (hsize : base.length ≤ after.size) : base <:+ after.stack := by
  obtain ⟨s, hs⟩ | hs := h.stack
  · rw [hs]
    exact hbase.trans (List.suffix_cons _ _)
  · exact List.suffix_of_suffix_length_le hbase hs hsize

theorem grounded (h : before.Continues after) (hground : [before.global] <:+ before.stack) :
    [after.global] <:+ after.stack := by
  rw [h.global]
  apply h.suffix hground
  exact List.length_pos_iff.mpr (h.nonempty (hground.ne_nil (List.cons_ne_nil _ _)))

end Continues

theorem stack_leaveAbove {env : Environment} {base : List Scope} (hbase : base <:+ env.stack)
    (hne : base ≠ []) : (env.leaveAbove base.length).stack = base := by
  have hpos := List.length_pos_iff.mpr hne
  rw [leaveAbove, Nat.max_eq_left hpos]
  exact (List.suffix_iff_eq_drop.mp hbase).symm

theorem size_leaveAbove (env : Environment) (k : Nat) :
    (env.leaveAbove k).size = min env.size (max k 1) := by
  simp only [size, leaveAbove, List.length_drop]
  omega

end Environment

theorem Move.continues_of_become {m : Move} {e : EnvironmentId} {env env' : Environment}
    (h : m.become e env = some env') : env.Continues env' := by
  have hone : ∀ {p : Prop} [Decidable p] {changed : Environment}, env.Continues changed →
      (if p then some changed else some env) = some env' → env.Continues env' := by
    intro p _ changed hchanged h
    split at h
    · exact Option.some.inj h ▸ hchanged
    · exact Option.some.inj h ▸ .refl env
  cases m with
  | none => exact Option.some.inj h ▸ .refl env
  | begun new => exact Option.some.inj h ▸ .refl env
  | entered e' s => exact hone (.enter env s) h
  | left e' => exact hone (.leave env) h
  | restored g => exact hone (.leaveAbove env g.base) h
  | ended e' =>
      simp only [become] at h
      split at h
      · cases h
      · exact Option.some.inj h ▸ .refl env

namespace World

/-- The global scope of every environment is at the bottom of its stack. -/
def Grounded (w : World) : Prop :=
  ∀ e env, w.environment? e = some env → [env.global] <:+ env.stack

theorem Grounded.perform {w : World} (h : w.Grounded) (a : Action) : (w.perform a).1.Grounded := by
  intro e env' henv'
  cases he : w.environment? e with
  | some env =>
      rw [environment?_perform he] at henv'
      exact (Move.continues_of_become henv').grounded (h e env he)
  | none =>
      obtain ⟨config, -, rfl⟩ := eq_newEnvironment_of_begun (move_of_absent he henv')
      exact List.suffix_refl _

theorem grounded_of_run (actions : List Action) : (World.empty.performAll actions).1.Grounded := by
  have hrun : ∀ {w : World}, w.Grounded → (w.performAll actions).1.Grounded := by
    induction actions with
    | nil => exact id
    | cons a rest ih => exact fun h => ih (h.perform a)
  apply hrun
  intro e env he
  cases he

/-! ### What a run leaves of the stack -/

/-- Whether the environment is there with at least `k` entered scopes. -/
def hasEntered (w : World) (e : EnvironmentId) (k : Nat) : Bool :=
  (w.environment? e).any fun env => k ≤ env.size

/-- Whether the environment is there with at least `k` entered scopes at each moment of a run. -/
def keepsEntered (w : World) (e : EnvironmentId) (k : Nat) : List Action → Bool
  | [] => w.hasEntered e k
  | a :: rest => w.hasEntered e k && (w.perform a).1.keepsEntered e k rest

theorem hasEntered_of_keepsEntered {w : World} {e : EnvironmentId} {k : Nat}
    {actions : List Action} (h : w.keepsEntered e k actions = true) : w.hasEntered e k = true := by
  cases actions with
  | nil => exact h
  | cons a rest => exact (Bool.and_eq_true_iff.mp h).1

theorem exists_of_hasEntered {w : World} {e : EnvironmentId} {k : Nat}
    (h : w.hasEntered e k = true) : ∃ env, w.environment? e = some env ∧ k ≤ env.size := by
  simpa [hasEntered, Option.any_eq_true] using h

theorem keepsEntered_of_part {w : World} {e : EnvironmentId} {k : Nat} {part actions : List Action}
    (hpart : part <+: actions) (h : w.keepsEntered e k actions = true) :
    w.keepsEntered e k part = true := by
  induction part generalizing w actions with
  | nil => exact hasEntered_of_keepsEntered h
  | cons a part ih =>
      obtain ⟨rest, rfl, htail⟩ := List.cons_prefix_iff.mp hpart
      obtain ⟨hhere, hrest⟩ := Bool.and_eq_true_iff.mp h
      exact Bool.and_eq_true_iff.mpr ⟨hhere, ih htail hrest⟩

/-- A run that never has fewer scopes entered than there are in a lower end of the stack keeps that
lower end. -/
theorem suffix_performAll {w : World} {e : EnvironmentId} {env : Environment} {base : List Scope}
    {actions : List Action} (he : w.environment? e = some env) (hbase : base <:+ env.stack)
    (hkeeps : w.keepsEntered e base.length actions = true) :
    ∃ env', (w.performAll actions).1.environment? e = some env' ∧ base <:+ env'.stack ∧
      env'.global = env.global ∧ env'.config = env.config ∧ env'.finished = env.finished := by
  induction actions generalizing w env with
  | nil => exact ⟨env, he, hbase, rfl, rfl, rfl⟩
  | cons a rest ih =>
      have hrest : (w.perform a).1.keepsEntered e base.length rest = true :=
        (Bool.and_eq_true_iff.mp hkeeps).2
      obtain ⟨next, hnext, hsize⟩ := exists_of_hasEntered (hasEntered_of_keepsEntered hrest)
      have hcont : env.Continues next :=
        Move.continues_of_become ((environment?_perform he a).symm.trans hnext)
      obtain ⟨env', henv', hbase', hglobal, hconfig, hfinished⟩ :=
        ih hnext (hcont.suffix hbase hsize) hrest
      exact ⟨env', henv', hbase', hglobal.trans hcont.global, hconfig.trans hcont.config,
        hfinished.trans hcont.finished⟩

end World

end ScopeChain
