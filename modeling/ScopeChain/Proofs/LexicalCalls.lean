import ScopeChain.Proofs.Origins
import ScopeChain.Proofs.TwoWorlds

/-!
Calls are lexical.  What a call does and answers is decided by the scopes and by the scope that the
called function captured; the scopes that its caller has entered have no part in it.  So two calls of
one function on one store take the same course, whoever makes them, and a scope that is not on the
chain of the captured scope is out of the reach of the call.
-/

namespace ScopeChain

/-- What the body of a call does through its environment. -/
inductive Operation where
  | define (n : Name) (v : Value) (m : Mutability)
  | defineGlobal (n : Name) (v : Value)
  | assign (n : Name) (v : Value)
  | get (n : Name)
  | lookup (n : Name)
  | contains (n : Name)
  | capture
  | closure (name : Option Name) (params : List Name) (body : Body)
  | enterBlock
  | enterCall (captured : Scope)
  | leave

/-- The operation as an action on the environment. -/
def Operation.through (e : EnvironmentId) : Operation → Action
  | define n v m => .define (.current e) n v m
  | defineGlobal n v => .define (.global e) n v .mutable
  | assign n v => .assign (.current e) n v
  | get n => .get (.current e) n
  | lookup n => .lookup (.current e) n
  | contains n => .contains (.current e) n
  | capture => .capture e
  | closure name params body => .closure e name params body
  | enterBlock => .enterBlock e
  | enterCall captured => .enterCall e captured
  | leave => .leave e

/-- What entering a call under a guard answers, when entering it without one answers this. -/
def Result.guarded (g : Guard) : Result → Result
  | done => .guard g
  | r => r

/-! ### The scopes that calls have entered -/

/-- Two calls that begin on one store, with what their environments have in common and with the
scopes that the callers had entered. -/
structure TwoCalls where
  base : Store
  global : Scope
  config : Config
  e₁ : EnvironmentId
  e₂ : EnvironmentId
  callers₁ : List Scope
  callers₂ : List Scope
  entered : callers₁ ≠ []

/-- The calls that two environments enter on a store. -/
def TwoCalls.on (st : Store) (e₁ e₂ : EnvironmentId) (env₁ env₂ : Environment)
    (h : env₁.stack ≠ []) : TwoCalls where
  base := st
  global := env₁.global
  config := env₁.config
  e₁ := e₁
  e₂ := e₂
  callers₁ := env₁.stack
  callers₂ := env₂.stack
  entered := h

/-- The environments have the same scopes entered above those of the callers, at least one, and all
of them are new. -/
structure TwoCalls.Alike (c : TwoCalls) (env₁ env₂ : Environment) : Prop where
  global₁ : env₁.global = c.global
  global₂ : env₂.global = c.global
  config₁ : env₁.config = c.config
  config₂ : env₂.config = c.config
  stack : ∃ s inner, env₁.stack = s :: (inner ++ c.callers₁) ∧
    env₂.stack = s :: (inner ++ c.callers₂) ∧ ∀ t ∈ s :: inner, c.base.isLive t = false

namespace TwoCalls.Alike

variable {c : TwoCalls} {env₁ env₂ : Environment}

theorem current (h : c.Alike env₁ env₂) : env₁.current = env₂.current := by
  obtain ⟨s, inner, hstack₁, hstack₂, -⟩ := h.stack
  rw [Environment.current, Environment.current, hstack₁, hstack₂]
  rfl

theorem config (h : c.Alike env₁ env₂) : env₁.config = env₂.config :=
  h.config₁.trans h.config₂.symm

theorem isLive_current (h : c.Alike env₁ env₂) : c.base.isLive env₁.current = false := by
  obtain ⟨s, inner, hstack, -, hnew⟩ := h.stack
  rw [Environment.current, hstack]
  exact hnew s List.mem_cons_self

theorem enter (h : c.Alike env₁ env₂) {s : Scope} (hs : c.base.isLive s = false) :
    c.Alike (env₁.enter s) (env₂.enter s) := by
  obtain ⟨t, inner, hstack₁, hstack₂, hnew⟩ := h.stack
  refine ⟨h.global₁, h.global₂, h.config₁, h.config₂, s, t :: inner, congrArg _ hstack₁,
    congrArg _ hstack₂, ?_⟩
  rintro x (_ | ⟨_, hx⟩)
  · exact hs
  · exact hnew x hx

theorem leave (h : c.Alike env₁ env₂) (hsize : c.callers₁.length + 1 ≤ env₁.leave.size) :
    c.Alike env₁.leave env₂.leave ∧ env₁.innermost? = env₂.innermost? := by
  obtain ⟨s, inner, hstack₁, hstack₂, hnew⟩ := h.stack
  cases inner with
  | nil =>
      -- This would leave the call itself, and `hsize` excludes that.
      obtain ⟨t, rest, hcallers⟩ := List.exists_cons_of_ne_nil c.entered
      simp only [Environment.leave, List.nil_append, hcallers] at hsize hstack₁
      rw [hstack₁] at hsize
      simp only [Environment.size, List.length_cons] at hsize
      omega
  | cons t inner =>
      have hleave : ∀ {env : Environment} {callers : List Scope},
          env.stack = s :: (t :: inner ++ callers) →
            env.leave = { env with stack := t :: (inner ++ callers) } ∧
              env.innermost? = some s := by
        intro env callers hstack
        simp [Environment.leave, Environment.innermost?, hstack]
      obtain ⟨hleave₁, hleft₁⟩ := hleave hstack₁
      obtain ⟨hleave₂, hleft₂⟩ := hleave hstack₂
      rw [hleave₁, hleave₂, hleft₁, hleft₂]
      exact ⟨⟨h.global₁, h.global₂, h.config₁, h.config₂, t, inner, rfl, rfl, fun x hx =>
        hnew x (List.mem_cons_of_mem _ hx)⟩, rfl⟩

theorem leave_of_hasEntered (h : c.Alike env₁ env₂) {w : World}
    (he : w.environment? c.e₁ = some env₁)
    (hin : (w.perform (.leave c.e₁)).1.hasEntered c.e₁ (c.callers₁.length + 1) = true) :
    c.Alike env₁.leave env₂.leave ∧ env₁.innermost? = env₂.innermost? := by
  obtain ⟨env, henv, hsize⟩ := World.exists_of_hasEntered hin
  have hleft : (w.perform (.leave c.e₁)).1.environment? c.e₁ = some env₁.leave :=
    (World.environment?_perform he _).trans (if_pos rfl)
  obtain rfl : env = env₁.leave := Option.some.inj (henv.symm.trans hleft)
  exact h.leave hsize

end TwoCalls.Alike

/-! ### Two calls -/

open World

/-- The worlds have the same scopes, and a call runs in each. -/
structure TwoCalls.Same (c : TwoCalls) (w₁ w₂ : World) : Prop where
  sound₁ : w₁.Sound
  sound₂ : w₂.Sound
  store : w₁.store = w₂.store
  grows : c.base.Grows w₁.store
  environments : ∃ env₁ env₂, w₁.environment? c.e₁ = some env₁ ∧
    w₂.environment? c.e₂ = some env₂ ∧ c.Alike env₁ env₂

namespace TwoCalls.Same

variable {c : TwoCalls} {w₁ w₂ : World}

theorem current (h : c.Same w₁ w₂) : w₁.scopeAt? (.current c.e₁) = w₂.scopeAt? (.current c.e₂) := by
  obtain ⟨env₁, env₂, he₁, he₂, halike⟩ := h.environments
  rw [scopeAt?_current he₁, scopeAt?_current he₂, halike.current]

theorem global (h : c.Same w₁ w₂) : w₁.scopeAt? (.global c.e₁) = w₂.scopeAt? (.global c.e₂) := by
  obtain ⟨env₁, env₂, he₁, he₂, halike⟩ := h.environments
  rw [scopeAt?_global he₁, scopeAt?_global he₂, halike.global₁, halike.global₂]

theorem scope (h : c.Same w₁ w₂) (s : Scope) :
    w₁.scopeAt? (.scope s) = w₂.scopeAt? (.scope s) :=
  scopeAt?_scope_congr (by rw [h.store])

theorem performEntry (h : c.Same w₁ w₂) {p₁ p₂ : Place}
    (hplace : w₁.scopeAt? p₁ = w₂.scopeAt? p₂) :
    (w₁.performEntry c.e₁ p₁ fun _ => .done).2 = (w₂.performEntry c.e₂ p₂ fun _ => .done).2 ∧
      w₁.entry c.e₁ p₁ = w₂.entry c.e₂ p₂ := by
  obtain ⟨env₁, env₂, he₁, he₂, halike⟩ := h.environments
  obtain ⟨hanswer, hentry, -⟩ := performEntry_congr he₁ he₂ h.store halike.config hplace
  exact ⟨hanswer, hentry⟩

theorem change_through (h : c.Same w₁ w₂) (op : Operation) :
    w₁.change (op.through c.e₁) = w₂.change (op.through c.e₂) := by
  cases op with
  | define n v m => exact changeAt_congr h.current fun _ _ => rfl
  | defineGlobal n v => exact changeAt_congr h.global fun _ _ => rfl
  | assign n v => exact changeAt_congr h.current fun s _ => by rw [h.store]
  | enterBlock => exact (h.performEntry h.current).2
  | enterCall captured => exact (h.performEntry (h.scope captured)).2
  | _ => rfl

/-- An operation enters or leaves the same scope in both calls, as long as the call itself is not
left. -/
theorem environments_through (h : c.Same w₁ w₂) {op : Operation}
    (hin : (w₁.perform (op.through c.e₁)).1.hasEntered c.e₁ (c.callers₁.length + 1) = true) :
    ∃ env₁ env₂, (w₁.perform (op.through c.e₁)).1.environment? c.e₁ = some env₁ ∧
      (w₂.perform (op.through c.e₂)).1.environment? c.e₂ = some env₂ ∧
      c.Alike env₁ env₂ := by
  obtain ⟨env₁, env₂, he₁, he₂, halike⟩ := h.environments
  rw [environment?_perform he₁, environment?_perform he₂]
  -- Both environments enter the next new scope, or neither of them enters one.
  have hentry : ∀ {p₁ p₂ : Place}, w₁.scopeAt? p₁ = w₂.scopeAt? p₂ →
      ∃ env₁' env₂', (w₁.entrance c.e₁ p₁).become c.e₁ env₁ = some env₁' ∧
        (w₂.entrance c.e₂ p₂).become c.e₂ env₂ = some env₂' ∧
        c.Alike env₁' env₂' := by
    intro p₁ p₂ hplace
    obtain ⟨-, -, ⟨-, hnone₁, hnone₂⟩ | ⟨-, hentered₁, hentered₂⟩⟩ :=
      performEntry_congr he₁ he₂ h.store halike.config hplace
    · rw [hnone₁, hnone₂]
      exact ⟨env₁, env₂, rfl, rfl, halike⟩
    · rw [hentered₁, hentered₂]
      exact ⟨_, _, if_pos rfl, if_pos rfl, halike.enter h.grows.isLive_next⟩
  cases op with
  | enterBlock => exact hentry h.current
  | enterCall captured => exact hentry (h.scope captured)
  | leave => exact ⟨_, _, if_pos rfl, if_pos rfl, (halike.leave_of_hasEntered he₁ hin).1⟩
  | _ => exact ⟨env₁, env₂, rfl, rfl, halike⟩

theorem answer_through (h : c.Same w₁ w₂) {op : Operation}
    (hin : (w₁.perform (op.through c.e₁)).1.hasEntered c.e₁ (c.callers₁.length + 1) = true) :
    (w₁.perform (op.through c.e₁)).2 = (w₂.perform (op.through c.e₂)).2 := by
  cases op with
  | define n v m => exact answer_performAt_congr h.current fun _ _ => rfl
  | defineGlobal n v => exact answer_performAt_congr h.global fun _ _ => rfl
  | assign n v => exact answer_assign_congr h.current fun s _ => by rw [h.store]
  | get n => exact answer_get_congr h.current fun s _ => by rw [h.store]
  | lookup n => exact answer_performAt_congr h.current fun s _ => by rw [h.store]
  | contains n => exact answer_performAt_congr h.current fun s _ => by rw [h.store]
  | capture => exact answer_performAt_congr h.current fun _ _ => rfl
  | closure name params body =>
      obtain ⟨env₁, env₂, he₁, he₂, halike⟩ := h.environments
      simp only [Operation.through, perform, he₁, he₂, Environment.closure, halike.current]
  | enterBlock => exact (h.performEntry h.current).1
  | enterCall captured => exact (h.performEntry (h.scope captured)).1
  | leave =>
      obtain ⟨env₁, env₂, he₁, he₂, halike⟩ := h.environments
      simp only [Operation.through, perform, he₁, he₂, (halike.leave_of_hasEntered he₁ hin).2]

theorem perform (h : c.Same w₁ w₂) {op : Operation}
    (hin : (w₁.perform (op.through c.e₁)).1.hasEntered c.e₁ (c.callers₁.length + 1) = true) :
    c.Same (w₁.perform (op.through c.e₁)).1 (w₂.perform (op.through c.e₂)).1 where
  sound₁ := h.sound₁.perform _
  sound₂ := h.sound₂.perform _
  store := by
    rw [h.sound₁.store_perform, h.sound₂.store_perform, h.change_through op, h.store]
  grows := h.grows.trans (h.sound₁.grows_perform _)
  environments := h.environments_through hin

/-- The bodies of two calls take the same course. -/
theorem performAll (h : c.Same w₁ w₂) {body : List Operation}
    (hkeeps : w₁.keepsEntered c.e₁ (c.callers₁.length + 1) (body.map (·.through c.e₁)) = true) :
    (w₁.performAll (body.map (·.through c.e₁))).2 = (w₂.performAll (body.map (·.through c.e₂))).2 ∧
      c.Same (w₁.performAll (body.map (·.through c.e₁))).1
        (w₂.performAll (body.map (·.through c.e₂))).1 := by
  induction body generalizing w₁ w₂ with
  | nil => exact ⟨rfl, h⟩
  | cons op rest ih =>
      obtain ⟨-, hrest⟩ := Bool.and_eq_true_iff.mp hkeeps
      -- `hkeeps` is about the first call alone; the second one leaves what the first one leaves.
      have hin := hasEntered_of_keepsEntered hrest
      obtain ⟨hanswers, hafter⟩ := ih (h.perform hin) hrest
      exact ⟨congrArg₂ List.cons (h.answer_through hin) hanswers, hafter⟩

end TwoCalls.Same

/-! ### What a call can reach -/

namespace Store

/-- No scope that is new since `base` has the scope `t` on its chain. -/
def OutOfReach (base : Store) (t : Scope) (st : Store) : Prop :=
  ∀ s, st.isLive s = true → base.isLive s = false → t ∉ st.chain s

namespace OutOfReach

variable {base st : Store} {t : Scope}

theorem refl (base : Store) (t : Scope) : base.OutOfReach t base :=
  fun _ hs hnew => absurd hs (Bool.eq_false_iff.mp hnew)

theorem not_mem_chain (h : base.OutOfReach t st) (hgrows : base.Grows st) (hbase : base.Sound)
    (hst : st.Sound) {s : Scope} (hs : st.isLive s = true) (ht : t ∉ base.chain s) :
    t ∉ st.chain s := by
  cases hold : base.isLive s with
  | true => rwa [hgrows.chain hbase hst hold]
  | false => exact h s hs hold

theorem apply {c : Change} (h : base.OutOfReach t st) (hst : st.Sound)
    (hafter : (c.apply st).Sound) (ht : st.isLive t = true)
    (hcreated : ∀ f, c = .created f →
      ∃ p, f.parent = some p ∧ st.isLive p = true ∧ t ∉ st.chain p) :
    base.OutOfReach t (c.apply st) := by
  have hgrows : st.Grows (c.apply st) := .apply st c
  intro s hs hnew
  cases hold : st.isLive s with
  | true =>
      rw [hgrows.chain hst hafter hold]
      exact h s hold hnew
  | false =>
      -- The new scope stands in `p`, and its chain is the scope itself and the chain of `p`.
      obtain ⟨f, rfl, rfl⟩ := created_of_isLive_apply hold hs
      obtain ⟨p, hparent, hlive, hp⟩ := hcreated f rfl
      have hlink : ((Change.created f).apply st).parent? st.next = some p := by
        rw [Change.apply, parent?, frame?_add, if_pos rfl]
        exact hparent
      rw [hafter.chain_eq, hlink]
      rintro (_ | ⟨_, hmem⟩)
      · cases hold.symm.trans ht
      · rw [hgrows.chain hst hafter hlive] at hmem
        exact hp hmem

end OutOfReach

end Store

namespace World

theorem eq_of_scopeAt?_scope {w : World} {s t : Scope} (h : w.scopeAt? (.scope s) = some t) :
    s = t := by
  simp only [scopeAt?] at h
  split at h
  · exact Option.some.inj h
  · cases h

theorem parent_of_entry {w : World} {e : EnvironmentId} {place : Place} {f : Frame}
    (h : w.entry e place = .created f) :
    ∃ p, w.scopeAt? place = some p ∧ f.parent = some p := by
  unfold entry at h
  split at h
  · rename_i p _ hp
    split at h
    · cases h
    · unfold Store.creation at h
      split at h
      · cases h
        exact ⟨p, hp, rfl⟩
      · cases h
  · cases h

theorem assignment_ne_created (st : Store) (s : Scope) (n : Name) (v : Value) (f : Frame) :
    st.assignment s n v ≠ .created f := by
  unfold Store.assignment
  split <;> (split <;> rintro ⟨⟩)

theorem Sound.scope?_assignment {w : World} (h : w.Sound) {s r : Scope} {n : Name} {v : Value}
    (hr : (w.store.assignment s n v).scope? = some r) : r ∈ w.store.chain s := by
  unfold Store.assignment at hr
  split at hr
  · rename_i b hb
    split at hr
    · obtain rfl := Option.some.inj hr
      exact List.mem_of_find?_eq_some hb
    · cases hr
  · split at hr
    · obtain rfl := Option.some.inj hr
      exact h.store.root_mem_chain s
    · cases hr

end World

namespace TwoCalls.Same

variable {c : TwoCalls} {w₁ w₂ : World}

theorem not_mem_chain_current (h : c.Same w₁ w₂) {s t : Scope}
    (ht : c.base.OutOfReach t w₁.store) (hs : w₁.scopeAt? (.current c.e₁) = some s) :
    t ∉ w₁.store.chain s := by
  obtain ⟨env₁, env₂, he₁, -, halike⟩ := h.environments
  rw [scopeAt?_current he₁] at hs
  obtain rfl := Option.some.inj hs
  exact ht _ (h.sound₁.held he₁ (current_mem_held env₁)) halike.isLive_current

/-- A scope that the body of a call creates stands in the current one or in one that was captured. -/
theorem parent_of_created (h : c.Same w₁ w₂) {op : Operation} {f : Frame}
    (hf : w₁.change (op.through c.e₁) = .created f) :
    ∃ p, f.parent = some p ∧ w₁.store.isLive p = true ∧
      (w₁.scopeAt? (.current c.e₁) = some p ∨ op = .enterCall p) := by
  obtain ⟨env₁, env₂, he₁, -, -⟩ := h.environments
  cases op with
  | define n v m =>
      simp only [Operation.through, change, changeAt, scopeAt?_current he₁, reduceCtorEq] at hf
  | defineGlobal n v =>
      simp only [Operation.through, change, changeAt, scopeAt?_global he₁, reduceCtorEq] at hf
  | assign n v =>
      simp only [Operation.through, change, changeAt, scopeAt?_current he₁] at hf
      exact absurd hf (assignment_ne_created _ _ _ _ f)
  | enterBlock =>
      obtain ⟨p, hp, hparent⟩ := parent_of_entry hf
      exact ⟨p, hparent, h.sound₁.isLive_scopeAt? hp, .inl hp⟩
  | enterCall captured =>
      obtain ⟨p, hp, hparent⟩ := parent_of_entry hf
      obtain rfl := eq_of_scopeAt?_scope hp
      exact ⟨captured, hparent, h.sound₁.isLive_scopeAt? hp, .inr rfl⟩
  | _ => cases hf

/-- What the body of a call writes goes to the chain of the current scope, or by name to the global
scope. -/
theorem scope?_through (h : c.Same w₁ w₂) {op : Operation} {t : Scope}
    (ht : (w₁.change (op.through c.e₁)).scope? = some t) :
    (∃ s, w₁.scopeAt? (.current c.e₁) = some s ∧ t ∈ w₁.store.chain s) ∨
      (t = c.global ∧ ∃ n v, op = .defineGlobal n v) := by
  obtain ⟨env₁, env₂, he₁, -, halike⟩ := h.environments
  cases op with
  | define n v m =>
      simp only [Operation.through, change, changeAt, scopeAt?_current he₁] at ht
      obtain rfl := Option.some.inj ht
      exact .inl ⟨_, scopeAt?_current he₁, h.sound₁.store.self_mem_chain _⟩
  | defineGlobal n v =>
      simp only [Operation.through, change, changeAt, scopeAt?_global he₁] at ht
      obtain rfl := Option.some.inj ht
      exact .inr ⟨halike.global₁, n, v, rfl⟩
  | assign n v =>
      simp only [Operation.through, change, changeAt, scopeAt?_current he₁] at ht
      exact .inl ⟨_, scopeAt?_current he₁, h.sound₁.scope?_assignment ht⟩
  | enterBlock => cases (scope?_entry ..).symm.trans ht
  | enterCall captured => cases (scope?_entry ..).symm.trans ht
  | _ => cases ht

variable {t : Scope}

theorem outOfReach_perform (h : c.Same w₁ w₂) (hbase : c.base.Sound)
    (hlive : c.base.isLive t = true) (ht : c.base.OutOfReach t w₁.store) {op : Operation}
    (hcalls : ∀ s, op = .enterCall s → t ∉ c.base.chain s) :
    c.base.OutOfReach t (w₁.perform (op.through c.e₁)).1.store := by
  rw [h.sound₁.store_perform]
  refine ht.apply h.sound₁.store ?_ (h.grows.isLive hlive) fun f hf => ?_
  · rw [← h.sound₁.store_perform]
    exact (h.sound₁.perform _).store
  · obtain ⟨p, hparent, hp, hcurrent | rfl⟩ := h.parent_of_created hf
    · exact ⟨p, hparent, hp, h.not_mem_chain_current ht hcurrent⟩
    · exact ⟨p, hparent, hp, ht.not_mem_chain h.grows hbase h.sound₁.store hp (hcalls p rfl)⟩

theorem frame?_perform (h : c.Same w₁ w₂) (hlive : c.base.isLive t = true)
    (ht : c.base.OutOfReach t w₁.store) {op : Operation}
    (hglobal : ∀ n v, op = .defineGlobal n v → t ≠ c.global) :
    (w₁.perform (op.through c.e₁)).1.store.frame? t = w₁.store.frame? t := by
  rw [h.sound₁.store_perform]
  refine Store.frame?_apply (h.grows.isLive hlive) fun hscope => ?_
  obtain ⟨s, hs, hmem⟩ | ⟨hroot, n, v, hop⟩ := h.scope?_through hscope
  · exact h.not_mem_chain_current ht hs hmem
  · exact hglobal n v hop hroot

/-- The body of a call does not get to a scope that is not on the chains of the captured scopes. -/
theorem outOfReach_performAll (h : c.Same w₁ w₂) (hbase : c.base.Sound)
    (hlive : c.base.isLive t = true) (ht : c.base.OutOfReach t w₁.store) {body : List Operation}
    (hkeeps : w₁.keepsEntered c.e₁ (c.callers₁.length + 1) (body.map (·.through c.e₁)) = true)
    (hcalls : ∀ s, .enterCall s ∈ body → t ∉ c.base.chain s) :
    c.base.OutOfReach t (w₁.performAll (body.map (·.through c.e₁))).1.store ∧
      ((∀ n v, .defineGlobal n v ∈ body → t ≠ c.global) →
        (w₁.performAll (body.map (·.through c.e₁))).1.store.frame? t = w₁.store.frame? t) := by
  induction body generalizing w₁ w₂ with
  | nil => exact ⟨ht, fun _ => rfl⟩
  | cons op rest ih =>
      obtain ⟨-, hrest⟩ := Bool.and_eq_true_iff.mp hkeeps
      have hnext : c.base.OutOfReach t (w₁.perform (op.through c.e₁)).1.store :=
        h.outOfReach_perform hbase hlive ht fun s hs => hcalls s (hs ▸ List.mem_cons_self)
      obtain ⟨hreach, hframe⟩ := ih (h.perform (hasEntered_of_keepsEntered hrest)) hnext hrest
        fun s hs => hcalls s (List.mem_cons_of_mem _ hs)
      refine ⟨hreach, fun hglobal => ?_⟩
      calc (w₁.performAll ((op :: rest).map (·.through c.e₁))).1.store.frame? t
          = (w₁.perform (op.through c.e₁)).1.store.frame? t :=
            hframe fun n v hmem => hglobal n v (List.mem_cons_of_mem _ hmem)
        _ = w₁.store.frame? t :=
            h.frame?_perform hlive ht fun n v hop => hglobal n v (hop ▸ List.mem_cons_self)

end TwoCalls.Same

namespace World

theorem guardCall_eq {w : World} {e : EnvironmentId} {env : Environment}
    (he : w.environment? e = some env) (captured : Scope) :
    w.perform (.guardCall e captured) =
      ((w.perform (.enterCall e captured)).1,
        (w.perform (.enterCall e captured)).2.guarded ⟨e, env.size⟩) := by
  change w.performEntry e (.scope captured) _ =
    ((w.performEntry e (.scope captured) _).1, (w.performEntry e (.scope captured) _).2.guarded _)
  cases hs : w.scopeAt? (.scope captured) with
  | none =>
      rw [performEntry_of_absent (.inr hs), performEntry_of_absent (.inr hs)]
      rfl
  | some s =>
      rw [performEntry_eq he hs, performEntry_eq he hs]
      cases env.config.exceeded? (w.store.depth s) <;> rfl

theorem enterCall_congr {w₁ w₂ : World} (h₁ : w₁.Sound) (h₂ : w₂.Sound) {e₁ e₂ : EnvironmentId}
    {env₁ env₂ : Environment} (he₁ : w₁.environment? e₁ = some env₁)
    (he₂ : w₂.environment? e₂ = some env₂) (hstore : w₁.store = w₂.store)
    (hglobal : env₁.global = env₂.global) (hconfig : env₁.config = env₂.config)
    (hentered : env₁.stack ≠ []) (captured : Scope) :
    (w₁.perform (.enterCall e₁ captured)).2 = (w₂.perform (.enterCall e₂ captured)).2 ∧
      (w₁.perform (.enterCall e₁ captured)).1.store =
        (w₂.perform (.enterCall e₂ captured)).1.store ∧
      ((w₁.perform (.enterCall e₁ captured)).2 = .done →
        (TwoCalls.on w₁.store e₁ e₂ env₁ env₂ hentered).Same
          (w₁.perform (.enterCall e₁ captured)).1 (w₂.perform (.enterCall e₂ captured)).1) := by
  have hplace : w₁.scopeAt? (.scope captured) = w₂.scopeAt? (.scope captured) :=
    scopeAt?_scope_congr (by rw [hstore])
  obtain ⟨hanswer, hentry, hentrance⟩ := performEntry_congr he₁ he₂ hstore hconfig hplace
  have hafter : (w₁.perform (.enterCall e₁ captured)).1.store =
      (w₂.perform (.enterCall e₂ captured)).1.store := by
    rw [h₁.store_perform, h₂.store_perform, hstore]
    exact congrArg (Change.apply w₂.store) hentry
  refine ⟨hanswer, hafter, fun hdone => ?_⟩
  obtain ⟨hfailed, -⟩ | ⟨-, hmove₁, hmove₂⟩ := hentrance
  · exact absurd hdone hfailed
  · have hmove : ∀ {w : World} {e : EnvironmentId} {env : Environment},
        w.environment? e = some env →
        w.entrance e (.scope captured) = .entered e w₁.store.next →
        (w.perform (.enterCall e captured)).1.environment? e = some (env.enter w₁.store.next) := by
      intro w e env he hentrance
      rw [environment?_perform he]
      exact (congrArg (Move.become e env) hentrance).trans (if_pos rfl)
    refine ⟨h₁.perform _, h₂.perform _, hafter, h₁.grows_perform _, _, _, hmove he₁ hmove₁,
      hmove he₂ hmove₂, rfl, hglobal.symm, rfl, hconfig.symm, w₁.store.next, [], rfl, rfl, ?_⟩
    rintro x (_ | ⟨_, hx⟩)
    · exact w₁.store.isLive_next
    · cases hx

namespace Sound

variable {w : World} {t : Scope}

theorem outOfReach_enterCall (h : w.Sound) (ht : w.store.isLive t = true) (e : EnvironmentId)
    {captured : Scope} (hcaptured : t ∉ w.store.chain captured) :
    w.store.OutOfReach t (w.perform (.enterCall e captured)).1.store := by
  rw [h.store_perform]
  refine (Store.OutOfReach.refl w.store t).apply h.store ?_ ht fun f hf => ?_
  · rw [← h.store_perform]
    exact (h.perform _).store
  · obtain ⟨p, hp, hparent⟩ := parent_of_entry hf
    obtain rfl := eq_of_scopeAt?_scope hp
    exact ⟨captured, hparent, h.isLive_scopeAt? hp, hcaptured⟩

theorem frame?_enterCall (h : w.Sound) (ht : w.store.isLive t = true) (e : EnvironmentId)
    (captured : Scope) :
    (w.perform (.enterCall e captured)).1.store.frame? t = w.store.frame? t := by
  rw [h.store_perform]
  apply Store.frame?_apply ht
  rw [change, scope?_entry]
  exact (Option.some_ne_none t).symm

end Sound

/-- Two calls of a function on one store, made by different callers, are entered alike, and their
bodies take the same course.  They get to no scope of the callers that is not on the chain of a
captured scope, and change none but the global one, when they name it. -/
theorem calls_are_lexical (actions₁ actions₂ : List Action) {e₁ e₂ : EnvironmentId}
    {env₁ env₂ : Environment} (captured : Scope)
    (he₁ : (World.empty.performAll actions₁).1.environment? e₁ = some env₁)
    (he₂ : (World.empty.performAll actions₂).1.environment? e₂ = some env₂)
    (hstore : (World.empty.performAll actions₁).1.store =
      (World.empty.performAll actions₂).1.store)
    (hglobal : env₁.global = env₂.global) (hconfig : env₁.config = env₂.config) :
    let w₁ := (World.empty.performAll actions₁).1
    let w₂ := (World.empty.performAll actions₂).1
    let in₁ := w₁.perform (.enterCall e₁ captured)
    let in₂ := w₂.perform (.enterCall e₂ captured)
    in₁.2 = in₂.2 ∧ in₁.1.store = in₂.1.store ∧
      w₁.perform (.guardCall e₁ captured) = (in₁.1, in₁.2.guarded ⟨e₁, env₁.size⟩) ∧
      w₂.perform (.guardCall e₂ captured) = (in₂.1, in₂.2.guarded ⟨e₂, env₂.size⟩) ∧
      (in₁.2 = .done → ∀ body : List Operation,
        in₁.1.keepsEntered e₁ (env₁.size + 1) (body.map (·.through e₁)) = true →
        let out₁ := in₁.1.performAll (body.map (·.through e₁))
        let out₂ := in₂.1.performAll (body.map (·.through e₂))
        out₁.2 = out₂.2 ∧ out₁.1.store = out₂.1.store ∧
          ∀ t, w₁.store.isLive t = true → t ∉ w₁.store.chain captured →
            (∀ s, .enterCall s ∈ body → t ∉ w₁.store.chain s) →
            (∃ s, out₁.1.scopeAt? (.current e₁) = some s ∧ t ∉ out₁.1.store.chain s) ∧
              ((∀ n v, .defineGlobal n v ∈ body → t ≠ env₁.global) →
                out₁.1.store.frame? t = w₁.store.frame? t)) := by
  intro w₁ w₂ in₁ in₂
  have h₁ : w₁.Sound := sound_of_run actions₁
  have h₂ : w₂.Sound := sound_of_run actions₂
  have hentered : env₁.stack ≠ [] :=
    (grounded_of_run actions₁ e₁ env₁ he₁).ne_nil (List.cons_ne_nil _ _)
  obtain ⟨hanswer, hstores, hbegun⟩ :=
    enterCall_congr h₁ h₂ he₁ he₂ hstore hglobal hconfig hentered captured
  refine ⟨hanswer, hstores, guardCall_eq he₁ captured, guardCall_eq he₂ captured, ?_⟩
  intro hdone body hkeeps out₁ out₂
  have hin := hbegun hdone
  obtain ⟨hanswers, hout⟩ := hin.performAll hkeeps
  refine ⟨hanswers, hout.store, fun t hlive hcaptured hcalls => ?_⟩
  obtain ⟨hreach, hframe⟩ := hin.outOfReach_performAll h₁.store hlive
    (h₁.outOfReach_enterCall hlive e₁ hcaptured) hkeeps hcalls
  obtain ⟨env, -, he, -⟩ := hout.environments
  have hcurrent : out₁.1.scopeAt? (.current e₁) = some env.current := scopeAt?_current he
  exact ⟨⟨_, hcurrent, hout.not_mem_chain_current hreach hcurrent⟩, fun hnamed =>
    (hframe hnamed).trans (h₁.frame?_enterCall hlive e₁ captured)⟩

/-- A call from a block that binds a name of its own, and the same call after the block. -/
theorem call_from_block_and_after :
    let inBlock : List Action := [.newEnvironment {},
      .define (.current ⟨0⟩) ⟨"x"⟩ .void .mutable, .enterBlock ⟨0⟩,
      .define (.current ⟨0⟩) ⟨"y"⟩ .void .mutable]
    let afterBlock := inBlock ++ [.leave ⟨0⟩]
    let body : List Operation := [.get ⟨"x"⟩, .lookup ⟨"y"⟩, .enterBlock,
      .assign ⟨"y"⟩ (.bool true), .leave, .enterCall ⟨0⟩, .leave, .closure none [] ⟨0⟩]
    (World.empty.performAll inBlock).1.environment? ⟨0⟩ =
        some ⟨[⟨1⟩, ⟨0⟩], ⟨0⟩, {}, false⟩ ∧
      (World.empty.performAll afterBlock).1.environment? ⟨0⟩ = some ⟨[⟨0⟩], ⟨0⟩, {}, false⟩ ∧
      (World.empty.performAll inBlock).1.store = (World.empty.performAll afterBlock).1.store ∧
      ((World.empty.performAll inBlock).1.perform (.enterCall ⟨0⟩ ⟨0⟩)).2 = .done ∧
      ((World.empty.performAll inBlock).1.perform (.enterCall ⟨0⟩ ⟨0⟩)).1.keepsEntered ⟨0⟩ 3
        (body.map (·.through ⟨0⟩)) = true ∧
      (((World.empty.performAll inBlock).1.perform (.enterCall ⟨0⟩ ⟨0⟩)).1.performAll
          (body.map (·.through ⟨0⟩))).2 =
        (((World.empty.performAll afterBlock).1.perform (.enterCall ⟨0⟩ ⟨0⟩)).1.performAll
          (body.map (·.through ⟨0⟩))).2 ∧
      (((World.empty.performAll inBlock).1.perform (.enterCall ⟨0⟩ ⟨0⟩)).1.performAll
          (body.map (·.through ⟨0⟩))).1.store.frame? ⟨1⟩ =
        (World.empty.performAll inBlock).1.store.frame? ⟨1⟩ := by
  intro inBlock afterBlock body
  have he₁ : (World.empty.performAll inBlock).1.environment? ⟨0⟩ =
      some ⟨[⟨1⟩, ⟨0⟩], ⟨0⟩, {}, false⟩ := rfl
  have he₂ : (World.empty.performAll afterBlock).1.environment? ⟨0⟩ =
      some ⟨[⟨0⟩], ⟨0⟩, {}, false⟩ := rfl
  have hstore : (World.empty.performAll inBlock).1.store =
      (World.empty.performAll afterBlock).1.store := rfl
  have hdone : ((World.empty.performAll inBlock).1.perform (.enterCall ⟨0⟩ ⟨0⟩)).2 = .done := rfl
  have hkeeps : ((World.empty.performAll inBlock).1.perform (.enterCall ⟨0⟩ ⟨0⟩)).1.keepsEntered
      ⟨0⟩ 3 (body.map (·.through ⟨0⟩)) = true := by decide
  have hlive : (World.empty.performAll inBlock).1.store.isLive ⟨1⟩ = true := rfl
  have hchain : ⟨1⟩ ∉ (World.empty.performAll inBlock).1.store.chain ⟨0⟩ := by decide
  have hcalls : ∀ s, .enterCall s ∈ body →
      ⟨1⟩ ∉ (World.empty.performAll inBlock).1.store.chain s := by
    intro s hs
    obtain rfl : s = ⟨0⟩ := by simpa [body] using hs
    exact hchain
  have hglobal : ∀ n v, .defineGlobal n v ∈ body → (⟨1⟩ : Scope) ≠ ⟨0⟩ := by simp
  obtain ⟨-, -, -, -, hbody⟩ :=
    calls_are_lexical inBlock afterBlock ⟨0⟩ he₁ he₂ hstore (by rfl) (by rfl)
  obtain ⟨hanswers, -, hreach⟩ := hbody hdone body hkeeps
  exact ⟨he₁, he₂, hstore, hdone, hkeeps, hanswers, (hreach ⟨1⟩ hlive hchain hcalls).2 hglobal⟩

end World

end ScopeChain
