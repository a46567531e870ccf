import ScopeChain.Proofs.DepthLimit
import ScopeChain.Proofs.Moments
import ScopeChain.Proofs.TwoWorlds

/-!
The stack of an environment.  Its bottom is the global scope, and the scopes above it stand in the
order in which they were entered, so the one that is left is the last one entered of those that are
there.  None of them is deeper than the limit allows.  As long as only functions of the environment's
own tree are called, all of them are in that tree.
-/

namespace ScopeChain

namespace Environment

theorem leave_suffix (env : Environment) : env.leave.stack <:+ env.stack := by
  unfold leave
  split
  · rename_i s t rest hstack
    rw [hstack]
    exact List.suffix_cons _ _
  · exact List.suffix_refl _

theorem leaveAbove_suffix (env : Environment) (k : Nat) : (env.leaveAbove k).stack <:+ env.stack :=
  List.drop_suffix _ _

theorem head?_stack {env : Environment} (hne : env.stack ≠ []) :
    env.stack.head? = some env.current := by
  obtain ⟨s, rest, hstack⟩ := List.exists_cons_of_ne_nil hne
  rw [current, hstack]
  rfl

theorem innermost?_eq {env : Environment} {inner : List Scope} {g : Scope}
    (hstack : env.stack = inner ++ [g]) : env.innermost? = inner.head? := by
  unfold innermost?
  rw [hstack]
  rcases inner with _ | ⟨s, _ | ⟨t, rest⟩⟩ <;> rfl

theorem stack_leave {env : Environment} {inner : List Scope} {g : Scope}
    (hstack : env.stack = inner ++ [g]) : env.leave.stack = inner.tail ++ [g] := by
  unfold leave
  rw [hstack]
  rcases inner with _ | ⟨s, _ | ⟨t, rest⟩⟩
  · exact hstack
  · rfl
  · rfl

end Environment

namespace World

variable {w : World} {e : EnvironmentId} {a : Action}

/-! ### What one operation does to a stack -/

/-- The operation enters a scope inside `p` in the environment, under a guard or without one, and the
limit allows it. -/
def EntersInside (w : World) (a : Action) (e : EnvironmentId) (p : Scope) : Prop :=
  ∃ captured, (a = .entering e captured ∨ a = .guarding e captured) ∧
    w.scopeAt? (.around e captured) = some p

theorem entered_of_entrance {place : Place} {e' : EnvironmentId} {s : Scope}
    (h : w.entrance e place = .entered e' s) :
    e' = e ∧ s = w.store.next ∧ ∃ env p, w.environment? e = some env ∧
      w.scopeAt? place = some p ∧ env.config.exceeded? (w.store.depth p) = none := by
  unfold entrance at h
  split at h
  · rename_i env p he hp
    split at h
    · cases h
    · rename_i hlimit
      cases h
      exact ⟨rfl, rfl, env, p, he, hp, hlimit⟩
  · cases h

theorem entered_of_move {s : Scope} (h : w.move a = .entered e s) :
    s = w.store.next ∧ ∃ env p, w.environment? e = some env ∧ w.EntersInside a e p ∧
      env.config.exceeded? (w.store.depth p) = none := by
  cases a with
  | enterBlock e' =>
      obtain ⟨rfl, hs, env, p, he, hp, hlimit⟩ := entered_of_entrance h
      exact ⟨hs, env, p, he, ⟨none, .inl rfl, hp⟩, hlimit⟩
  | enterCall e' captured =>
      obtain ⟨rfl, hs, env, p, he, hp, hlimit⟩ := entered_of_entrance h
      exact ⟨hs, env, p, he, ⟨some captured, .inl rfl, hp⟩, hlimit⟩
  | guardBlock e' =>
      obtain ⟨rfl, hs, env, p, he, hp, hlimit⟩ := entered_of_entrance h
      exact ⟨hs, env, p, he, ⟨none, .inr rfl, hp⟩, hlimit⟩
  | guardCall e' captured =>
      obtain ⟨rfl, hs, env, p, he, hp, hlimit⟩ := entered_of_entrance h
      exact ⟨hs, env, p, he, ⟨some captured, .inr rfl, hp⟩, hlimit⟩
  | _ => cases h

/-- An operation leaves a lower end of the stack, or it enters a new scope that the limit allows. -/
theorem stack_cases {before after : Environment} (hbefore : w.environment? e = some before)
    (hafter : (w.perform a).1.environment? e = some after) :
    after.stack <:+ before.stack ∨ ∃ p, w.EntersInside a e p ∧
      before.config.exceeded? (w.store.depth p) = none ∧ after = before.enter w.store.next := by
  rw [environment?_perform hbefore] at hafter
  have hone : ∀ {q : Prop} [Decidable q] {changed : Environment}, changed.stack <:+ before.stack →
      (if q then some changed else some before) = some after → after.stack <:+ before.stack := by
    intro q _ changed hchanged h
    split at h
    · exact Option.some.inj h ▸ hchanged
    · exact Option.some.inj h ▸ List.suffix_refl _
  cases hmove : w.move a with
  | none =>
      rw [hmove] at hafter
      exact .inl (Option.some.inj hafter ▸ List.suffix_refl _)
  | begun new =>
      rw [hmove] at hafter
      exact .inl (Option.some.inj hafter ▸ List.suffix_refl _)
  | entered e' s =>
      rw [hmove, Move.become] at hafter
      split at hafter
      · rename_i hsame
        subst hsame
        obtain ⟨rfl, env, p, he, henters, hlimit⟩ := entered_of_move hmove
        obtain rfl := Option.some.inj (he.symm.trans hbefore)
        exact .inr ⟨p, henters, hlimit, (Option.some.inj hafter).symm⟩
      · exact .inl (Option.some.inj hafter ▸ List.suffix_refl _)
  | left e' =>
      rw [hmove] at hafter
      exact .inl (hone before.leave_suffix hafter)
  | restored g =>
      rw [hmove] at hafter
      exact .inl (hone (before.leaveAbove_suffix g.base) hafter)
  | ended e' =>
      rw [hmove, Move.become] at hafter
      split at hafter
      · cases hafter
      · exact .inl (Option.some.inj hafter ▸ List.suffix_refl _)

/-! ### Depths and policies -/

/-- No entered scope is deeper than the limit of its environment, and the global scope has the policy
that was configured. -/
structure WithinConfig (w : World) : Prop where
  limit : ∀ {e env limit s}, w.environment? e = some env → env.config.maxDepth = some limit →
    s ∈ env.stack → (w.store.chain s).length ≤ limit.toNat + 1
  policy : ∀ {e env}, w.environment? e = some env → w.store.policy env.global = env.config.policy

theorem withinConfig_empty : World.empty.WithinConfig where
  limit h := by cases h
  policy h := by cases h

theorem Sound.isLive_of_mem_stack (h : w.Sound) {env : Environment} {s : Scope}
    (he : w.environment? e = some env) (hs : s ∈ env.stack) : w.store.isLive s = true :=
  h.held he (List.mem_cons_of_mem _ hs)

theorem Sound.chain_perform (h : w.Sound) (a : Action) {s : Scope} (hs : w.store.isLive s = true) :
    (w.perform a).1.store.chain s = w.store.chain s :=
  (h.grows_perform a).chain h.store (h.perform a).store hs

theorem frame?_newEnvironment (w : World) (config : Config) :
    (w.perform (.newEnvironment config)).1.store.frame? w.store.next =
      some (.global config.policy) := by
  change (w.store.add (.global config.policy)).1.frame? w.store.next = _
  rw [Store.frame?_add, if_pos rfl]

/-- The scope that an operation enters stands inside the scope that it was entered from. -/
theorem Sound.parent?_of_entersInside (h : w.Sound) {env : Environment} {p : Scope}
    (he : w.environment? e = some env) (henters : w.EntersInside a e p)
    (hlimit : env.config.exceeded? (w.store.depth p) = none) :
    (w.perform a).1.store.parent? w.store.next = some p := by
  obtain ⟨captured, ha, hp⟩ := henters
  obtain ⟨f, hf⟩ := Store.isLive_iff.mp (h.isLive_scopeAt? hp)
  have hstore : (w.perform a).1.store = (w.newScope (some p)).1.store := by
    rcases ha with rfl | rfl
    · rw [perform_entering, performEntry_eq he hp, hlimit]
      rfl
    · rw [perform_guarding, performEntry_eq he hp, hlimit]
      rfl
  rw [hstore, Store.parent?, frame?_newScope hf, if_pos rfl]
  rfl

theorem WithinConfig.perform (hw : w.WithinConfig) (h : w.Sound) (a : Action) :
    (w.perform a).1.WithinConfig where
  limit := by
    intro e env limit s he hmax hs
    have hafter := (h.perform a).store
    obtain ⟨before, hbefore, hcont⟩ | ⟨config, rfl, -, rfl⟩ := environment_cases he
    · rw [hcont.config] at hmax
      have hold : ∀ t ∈ before.stack,
          ((w.perform a).1.store.chain t).length ≤ limit.toNat + 1 := by
        intro t ht
        rw [h.chain_perform a (h.isLive_of_mem_stack hbefore ht)]
        exact hw.limit hbefore hmax ht
      obtain hsuffix | ⟨p, henters, hlimit, rfl⟩ := stack_cases hbefore he
      · exact hold s (hsuffix.subset hs)
      · rcases List.mem_cons.mp hs with rfl | hs
        · -- The limit allows the chain of `p`, and the new scope has one scope more on its chain.
          have hp : (w.store.chain p).length ≤ limit.toNat := by
            by_contra hdeep
            have hexceeded := (h.lt_depth_iff p limit).mpr (Nat.lt_of_not_le hdeep)
            cases hlimit.symm.trans (Config.exceeded?_eq_some_iff.mpr ⟨hmax, hexceeded⟩)
          rw [hafter.chain_eq, h.parent?_of_entersInside hbefore henters hlimit]
          obtain ⟨captured, -, hplace⟩ := henters
          rw [List.length_cons, h.chain_perform a (h.isLive_scopeAt? hplace)]
          exact Nat.succ_le_succ hp
        · exact hold s hs
    · obtain rfl := List.mem_singleton.mp hs
      have hparent : (w.perform (.newEnvironment config)).1.store.parent? w.store.next = none := by
        rw [Store.parent?, w.frame?_newEnvironment]
        rfl
      rw [hafter.chain_eq, hparent]
      exact Nat.le_add_left _ _
  policy := by
    intro e env he
    obtain ⟨before, hbefore, hcont⟩ | ⟨config, rfl, -, rfl⟩ := environment_cases he
    · rw [hcont.global, hcont.config,
        (h.grows_perform a).policy (h.held hbefore List.mem_cons_self)]
      exact hw.policy hbefore
    · change (w.perform (.newEnvironment config)).1.store.policy w.store.next = config.policy
      rw [Store.policy, w.frame?_newEnvironment]
      rfl

theorem withinConfig_of_run (actions : List Action) :
    (World.empty.performAll actions).1.WithinConfig := by
  induction actions using List.reverseRecOn with
  | nil => exact withinConfig_empty
  | append_singleton actions a ih =>
      rw [performAll_append]
      exact ih.perform (sound_of_run actions) a

/-! ### Calls of functions of the own tree -/

/-- At some moment of the run a call is entered in the environment under a scope that is not in the
tree of `g`. -/
def CallsOutside (w : World) (run : List Action) (e : EnvironmentId) (g : Scope) : Prop :=
  w.Sometime run fun now a _ => ∃ captured,
    (a = .enterCall e captured ∨ a = .guardCall e captured) ∧
      now.store.isLive captured = true ∧ now.store.root captured ≠ g

theorem EntersInside.cases {p : Scope} (h : w.EntersInside a e p) :
    w.scopeAt? (.current e) = some p ∨
      ((a = .enterCall e p ∨ a = .guardCall e p) ∧ w.store.isLive p = true) := by
  obtain ⟨captured, ha, hp⟩ := h
  cases captured with
  | none => exact .inl hp
  | some captured =>
      simp only [Place.around, scopeAt?] at hp
      split at hp
      · rename_i hlive
        obtain rfl := Option.some.inj hp
        exact .inr ⟨ha, hlive⟩
      · cases hp

/-- An operation keeps the stack in the tree of the global scope unless it calls a function of another
tree. -/
theorem Sound.root_perform (h : w.Sound) (hground : w.Grounded) {before after : Environment}
    (hbefore : w.environment? e = some before)
    (hafter : (w.perform a).1.environment? e = some after)
    (hcall : ∀ captured, a = .enterCall e captured ∨ a = .guardCall e captured →
      w.store.isLive captured = true → w.store.root captured = before.global)
    (hstack : ∀ t ∈ before.stack, w.store.root t = before.global) :
    ∀ s ∈ after.stack, (w.perform a).1.store.root s = before.global := by
  have hstore : (w.perform a).1.store.Sound := (h.perform a).store
  have hroot : ∀ t, w.store.isLive t = true → w.store.root t = before.global →
      (w.perform a).1.store.root t = before.global := fun t ht hbase =>
    ((h.grows_perform a).root h.store hstore ht).trans hbase
  have hold : ∀ t ∈ before.stack, (w.perform a).1.store.root t = before.global := fun t ht =>
    hroot t (h.isLive_of_mem_stack hbefore ht) (hstack t ht)
  obtain hsuffix | ⟨p, henters, hlimit, rfl⟩ := stack_cases hbefore hafter
  · exact fun s hs => hold s (hsuffix.subset hs)
  · have hp : w.store.isLive p = true ∧ w.store.root p = before.global := by
      obtain hcurrent | ⟨ha, hlive⟩ := henters.cases
      · -- A block is entered from the top of the stack, which is in the tree already.
        rw [scopeAt?_current hbefore] at hcurrent
        have hne : before.stack ≠ [] := (hground e before hbefore).ne_nil (List.cons_ne_nil _ _)
        have hmem : p ∈ before.stack :=
          List.mem_of_mem_head? ((Environment.head?_stack hne).trans hcurrent)
        exact ⟨h.isLive_of_mem_stack hbefore hmem, hstack p hmem⟩
      · exact ⟨hlive, hcall p ha hlive⟩
    intro s hs
    rcases List.mem_cons.mp hs with rfl | hs
    · rw [hstore.root_eq, h.parent?_of_entersInside hbefore henters hlimit]
      exact hroot p hp.1 hp.2
    · exact hold s hs

theorem root_of_run {actions : List Action} {env : Environment}
    (he : (World.empty.performAll actions).1.environment? e = some env)
    (hcalls : ¬World.empty.CallsOutside actions e env.global) :
    ∀ s ∈ env.stack, (World.empty.performAll actions).1.store.root s = env.global := by
  induction actions using List.reverseRecOn generalizing env with
  | nil => cases he
  | append_singleton actions a ih =>
      have h : (World.empty.performAll actions).1.Sound := sound_of_run actions
      rw [performAll_append] at he ⊢
      obtain ⟨before, hbefore, hcont⟩ | ⟨config, rfl, -, rfl⟩ := environment_cases he
      · rw [hcont.global] at hcalls ⊢
        refine h.root_perform (grounded_of_run actions) hbefore he (fun captured ha hlive => ?_)
          (ih hbefore fun houtside => hcalls (houtside.of_part (List.prefix_append _ _)))
        by_contra houtside
        exact hcalls ⟨actions, a, [], rfl, captured, ha, hlive, houtside⟩
      · intro s hs
        obtain rfl := List.mem_singleton.mp hs
        have hafter := (h.perform (.newEnvironment config)).store
        refine (hafter.root_eq _).trans ?_
        rw [Store.parent?, frame?_newEnvironment]
        rfl

/-! ### The order of the entries -/

/-- The scope that an operation enters in the environment, which makes the stack longer. -/
def newlyEntered? (w : World) (e : EnvironmentId) (a : Action) : Option Scope :=
  match w.environment? e, (w.perform a).1.environment? e with
  | some before, some after => if before.size < after.size then some after.current else none
  | _, _ => none

/-- The scopes that a run enters in the environment, in the order of their entry. -/
def entries (w : World) (e : EnvironmentId) : List Action → List Scope
  | [] => []
  | a :: rest => (w.newlyEntered? e a).toList ++ (w.perform a).1.entries e rest

theorem entries_concat (w : World) (e : EnvironmentId) (actions : List Action) (a : Action) :
    w.entries e (actions ++ [a]) =
      w.entries e actions ++ ((w.performAll actions).1.newlyEntered? e a).toList := by
  induction actions generalizing w with
  | nil => exact List.append_nil _
  | cons b rest ih =>
      simp only [List.cons_append, entries, ih, List.append_assoc]
      rfl

/-- What is entered is a new scope, and it is put on the stack. -/
theorem newlyEntered?_eq_some {s : Scope} (h : w.newlyEntered? e a = some s) :
    s = w.store.next ∧ ∃ before, w.environment? e = some before ∧
      (w.perform a).1.environment? e = some (before.enter s) := by
  unfold newlyEntered? at h
  split at h
  · rename_i before after hbefore hafter
    split at h
    · rename_i hlonger
      obtain hsuffix | ⟨p, -, -, rfl⟩ := stack_cases hbefore hafter
      · exact absurd hsuffix.length_le (Nat.not_le_of_lt hlonger)
      · obtain rfl := Option.some.inj h
        exact ⟨rfl, before, hbefore, hafter⟩
    · cases h
  · cases h

theorem suffix_of_newlyEntered?_eq_none {before after : Environment}
    (hbefore : w.environment? e = some before)
    (hafter : (w.perform a).1.environment? e = some after) (h : w.newlyEntered? e a = none) :
    after.stack <:+ before.stack := by
  obtain hsuffix | ⟨p, -, -, rfl⟩ := stack_cases hbefore hafter
  · exact hsuffix
  · have hlonger : before.size < (before.enter w.store.next).size := Nat.lt_succ_self _
    simp [newlyEntered?, hbefore, hafter, hlonger] at h

/-- The entries of an environment are different scopes, and the stack has some of them above the
global scope, the later above the earlier. -/
structure InOrder (w : World) (e : EnvironmentId) (entries : List Scope) : Prop where
  nodup : entries.Nodup
  live : ∀ s ∈ entries, w.store.isLive s = true
  stack : ∀ env, w.environment? e = some env → env.global ∉ entries ∧
    ∃ inner, env.stack = inner ++ [env.global] ∧ inner.Sublist entries.reverse

theorem InOrder.perform {entries : List Scope} (ho : w.InOrder e entries) (h : w.Sound)
    (a : Action) : (w.perform a).1.InOrder e (entries ++ (w.newlyEntered? e a).toList) := by
  have hlive : ∀ s ∈ entries, (w.perform a).1.store.isLive s = true := fun s hs =>
    (h.grows_perform a).isLive (ho.live s hs)
  cases hentry : w.newlyEntered? e a with
  | none =>
      rw [Option.toList_none, List.append_nil]
      refine ⟨ho.nodup, hlive, fun env he => ?_⟩
      obtain ⟨before, hbefore, hcont⟩ | ⟨config, -, -, rfl⟩ := environment_cases he
      · obtain ⟨hglobal, inner, hstack, hsub⟩ := ho.stack before hbefore
        obtain ⟨inner', hstack'⟩ := hcont.grounded ⟨inner, hstack.symm⟩
        obtain ⟨left, hleft⟩ := suffix_of_newlyEntered?_eq_none hbefore he hentry
        have hinner : left ++ inner' = inner := by
          rw [hstack, ← hstack', hcont.global, ← List.append_assoc] at hleft
          exact List.append_cancel_right hleft
        refine ⟨hcont.global ▸ hglobal, inner', hstack'.symm, ?_⟩
        have hshorter : inner' <:+ inner := ⟨left, hinner⟩
        exact hshorter.sublist.trans hsub
      · refine ⟨fun hmem => ?_, [], rfl, List.nil_sublist _⟩
        exact Store.ne_next (ho.live _ hmem) rfl
  | some s =>
      obtain ⟨rfl, before, hbefore, hafter⟩ := newlyEntered?_eq_some hentry
      have hnew : w.store.next ∉ entries := fun hmem => Store.ne_next (ho.live _ hmem) rfl
      have hentered : (w.perform a).1.store.isLive w.store.next = true :=
        (h.perform a).isLive_of_mem_stack hafter List.mem_cons_self
      obtain ⟨hglobal, inner, hstack, hsub⟩ := ho.stack before hbefore
      refine ⟨?_, ?_, fun env he => ?_⟩
      · exact List.nodup_append'.mpr
          ⟨ho.nodup, List.nodup_singleton _, List.disjoint_singleton.mpr hnew⟩
      · exact List.forall_mem_append.mpr ⟨hlive, List.forall_mem_singleton.mpr hentered⟩
      · obtain rfl := Option.some.inj (he.symm.trans hafter)
        refine ⟨?_, w.store.next :: inner, congrArg _ hstack, ?_⟩
        · rw [Option.toList_some, List.mem_append, List.mem_singleton, not_or]
          have hother : before.global ≠ w.store.next := h.global_ne_next hbefore
          exact ⟨hglobal, hother⟩
        · rw [Option.toList_some, List.reverse_append, List.reverse_singleton]
          exact hsub.cons_cons _

theorem inOrder_of_run (actions : List Action) (e : EnvironmentId) :
    (World.empty.performAll actions).1.InOrder e (World.empty.entries e actions) := by
  induction actions using List.reverseRecOn with
  | nil => exact ⟨List.nodup_nil, List.forall_mem_nil _, fun _ he => by cases he⟩
  | append_singleton actions a ih =>
      rw [performAll_append, entries_concat]
      exact ih.perform (sound_of_run actions) a

/-- In a list without repetitions the first member that a sublist has is the head of the sublist. -/
theorem find?_of_sublist {l inner : List Scope} {q : Scope → Bool} (hsub : inner.Sublist l)
    (hnodup : l.Nodup) (hq : ∀ s ∈ l, q s = true ↔ s ∈ inner) : l.find? q = inner.head? := by
  induction hsub with
  | slnil => rfl
  | @cons inner l s hsub ih =>
      obtain ⟨hs, hrest⟩ := List.nodup_cons.mp hnodup
      have hnot : ¬q s = true := by
        rw [hq s List.mem_cons_self]
        exact fun hmem => hs (hsub.subset hmem)
      rw [List.find?_cons_of_neg hnot]
      exact ih hrest fun t ht => hq t (List.mem_cons_of_mem _ ht)
  | @cons_cons inner l s hsub ih =>
      have hfound : q s = true := (hq s List.mem_cons_self).mpr List.mem_cons_self
      rw [List.find?_cons_of_pos hfound]
      rfl

theorem InOrder.innermost? {entries : List Scope} (ho : w.InOrder e entries) {env : Environment}
    (he : w.environment? e = some env) :
    env.innermost? = entries.reverse.find? fun s => s ∈ env.stack := by
  obtain ⟨hglobal, inner, hstack, hsub⟩ := ho.stack env he
  rw [Environment.innermost?_eq hstack]
  symm
  refine find?_of_sublist hsub (List.nodup_reverse.mpr ho.nodup) fun s hs => ?_
  have hne : s ≠ env.global := by
    rintro rfl
    exact hglobal (List.mem_reverse.mp hs)
  simp [hstack, hne]

/-- After any run an environment that is there has its global scope at the bottom of its stack and
the current scope on top.  What is left is the scope entered last of those that are there, and
nothing when only the global scope is there.  The limit holds for every entered scope, and if no
function of another tree was called all of them are in the tree of the global scope. -/
theorem stack_of_run (actions : List Action) {e : EnvironmentId} {env : Environment}
    (he : (World.empty.performAll actions).1.environment? e = some env) :
    let w := (World.empty.performAll actions).1
    let left := (World.empty.entries e actions).reverse.find? fun s => s ∈ env.stack
    env.stack ≠ [] ∧ env.stack.getLast? = some env.global ∧ env.stack.head? = some env.current ∧
      w.scopeAt? (.current e) = env.stack.head? ∧
      ((w.perform (.leave e)).2 = .left left ∧ (left = none ↔ env.stack = [env.global]) ∧
        ∃ after, (w.perform (.leave e)).1.environment? e = some after ∧
          env.stack = left.toList ++ after.stack) ∧
      (∀ limit s, env.config.maxDepth = some limit → s ∈ env.stack →
        w.store.depth s ≤ limit.toNat ∧ (w.store.chain s).length ≤ limit.toNat + 1) ∧
      (¬World.empty.CallsOutside actions e env.global →
        ∀ s ∈ env.stack, w.store.root s = env.global ∧ w.store.policy s = env.config.policy) := by
  intro w left
  have h : w.Sound := sound_of_run actions
  have ho : w.InOrder e (World.empty.entries e actions) := inOrder_of_run actions e
  have hwithin : w.WithinConfig := withinConfig_of_run actions
  obtain ⟨-, inner, hstack, -⟩ := ho.stack env he
  have hne : env.stack ≠ [] := hstack ▸ List.concat_ne_nil _ _
  have hleft : env.innermost? = left := ho.innermost? he
  have hhead : inner.head? = left := (Environment.innermost?_eq hstack).symm.trans hleft
  have htop : env.stack.head? = some env.current := Environment.head?_stack hne
  refine ⟨hne, ?_, htop, ?_, ⟨?_, ?_, env.leave, ?_, ?_⟩, fun limit s hmax hs => ?_,
    fun hcalls s hs => ?_⟩
  · rw [hstack, List.getLast?_concat]
  · rw [htop]
    exact scopeAt?_current he
  · have hw : w.environment? e = some env := he
    simp only [perform, hw, hleft]
  · rw [← hhead, List.head?_eq_none_iff, hstack]
    constructor
    · rintro rfl
      rfl
    · exact List.append_left_eq_self.mp
  · exact (environment?_perform he _).trans (if_pos rfl)
  · rw [Environment.stack_leave hstack, ← hhead, hstack, ← List.append_assoc]
    cases inner <;> rfl
  · have hlength := hwithin.limit he hmax hs
    have hcounted := h.store.depth_add_one s
    exact ⟨by omega, hlength⟩
  · have hroot : w.store.root s = env.global := root_of_run he hcalls s hs
    refine ⟨hroot, ?_⟩
    rw [← h.store.policy_root, hroot]
    exact hwithin.policy he

/-- A block, a call of a function of the global scope in it, and a block that was left. -/
theorem stack_of_nested_call :
    let actions : List Action := [.newEnvironment ⟨.strict, some 2⟩, .enterBlock ⟨0⟩,
      .guardCall ⟨0⟩ ⟨0⟩, .enterBlock ⟨0⟩, .enterBlock ⟨0⟩, .leave ⟨0⟩]
    let w := (World.empty.performAll actions).1
    w.environment? ⟨0⟩ = some ⟨[⟨2⟩, ⟨1⟩, ⟨0⟩], ⟨0⟩, ⟨.strict, some 2⟩, false⟩ ∧
      World.empty.entries ⟨0⟩ actions = [⟨1⟩, ⟨2⟩, ⟨3⟩] ∧
      (w.perform (.leave ⟨0⟩)).2 = .left (some ⟨2⟩) ∧ w.store.depth ⟨2⟩ ≤ 2 ∧
      w.store.root ⟨2⟩ = ⟨0⟩ ∧ w.store.policy ⟨2⟩ = .strict := by
  intro actions w
  have he : w.environment? ⟨0⟩ = some ⟨[⟨2⟩, ⟨1⟩, ⟨0⟩], ⟨0⟩, ⟨.strict, some 2⟩, false⟩ := rfl
  have hcalls : ¬World.empty.CallsOutside actions ⟨0⟩ ⟨0⟩ := by
    simp only [CallsOutside, actions, sometime_cons]
    rintro (⟨_, ha | ha, -⟩ | ⟨_, ha | ha, -⟩ | ⟨_, ha | ha, -, hroot⟩ | ⟨_, ha | ha, -⟩ |
      ⟨_, ha | ha, -⟩ | ⟨_, ha | ha, -⟩ | hnil)
    case inr.inr.inl.inr =>
      cases ha
      exact hroot (by decide)
    any_goals cases ha
    exact not_sometime_nil _ _ hnil
  obtain ⟨-, -, -, -, ⟨hleft, -⟩, hlimit, htree⟩ := stack_of_run actions he
  have hmem : (⟨2⟩ : Scope) ∈ [(⟨2⟩ : Scope), ⟨1⟩, ⟨0⟩] := List.mem_cons_self
  obtain ⟨hroot, hpolicy⟩ := htree hcalls ⟨2⟩ hmem
  exact ⟨he, by decide, hleft, (hlimit 2 ⟨2⟩ rfl hmem).1, hroot, hpolicy⟩

end World

end ScopeChain
