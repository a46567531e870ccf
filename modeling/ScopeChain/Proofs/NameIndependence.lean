import ScopeChain.Proofs.Origins
import ScopeChain.Proofs.TwoWorlds
import ScopeChain.Proofs.WrittenValues

/-!
Independence of names.  What a run does to one name is not influenced by what it does to others: when
every operation on another name is left out of the run, the operations on the name answer the same
and leave it the same bindings.
-/

namespace ScopeChain

/-- The name that an operation defines, assigns or reads. -/
def Action.name? : Action → Option Name
  | .define _ n _ _ | .assign _ n _ => some n
  | .get _ n | .lookup _ n | .contains _ n | .binds _ n | .mutability _ n => some n
  | _ => none

/-- The run without the operations on names other than `n`. -/
def only (n : Name) (run : List Action) : List Action :=
  run.filter fun a => a.name?.all (· = n)

/-- The operations of a run on the name `n`, each with its answer. -/
def World.answersOn (w : World) (n : Name) (run : List Action) : List (Action × Result) :=
  (run.zip (w.performAll run).2).filter fun p => p.1.name? = some n

/-- The change creates no scope and leaves every binding of the name. -/
structure Change.Spares (n : Name) (c : Change) : Prop where
  created : ∀ f, c ≠ .created f
  binding : ∀ s old, c.binding? s n old = old

namespace Change

variable {n m : Name}

theorem spares_none (n : Name) : none.Spares n :=
  ⟨fun _ => by rintro ⟨⟩, fun _ _ => rfl⟩

theorem spares_defined (hne : m ≠ n) (s : Scope) (x : Binding) : (defined s m x).Spares n :=
  ⟨fun _ => by rintro ⟨⟩, fun _ _ => if_neg fun hand => hne hand.2⟩

theorem spares_assigned (hne : m ≠ n) (s : Scope) (v : Value) : (assigned s m v).Spares n :=
  ⟨fun _ => by rintro ⟨⟩, fun _ _ => if_neg fun hand => hne hand.2⟩

theorem spares_assignment (hne : m ≠ n) (st : Store) (s : Scope) (v : Value) :
    (st.assignment s m v).Spares n := by
  unfold Store.assignment
  split
  · split
    · exact spares_assigned hne _ v
    · exact spares_none n
  · split
    · exact spares_defined hne _ _
    · exact spares_none n

end Change

namespace Store

/-! ### Stores that agree on a name -/

/-- The stores have the same scopes, and in each of these the same binding of the name. -/
structure AgreeOn (n : Name) (st₁ st₂ : Store) : Prop where
  sound₁ : st₁.Sound
  sound₂ : st₂.Sound
  next : st₁.next = st₂.next
  origin : ∀ s, st₁.origin? s = st₂.origin? s
  binding : ∀ s, (st₁.bindings s).find? n = (st₂.bindings s).find? n

namespace AgreeOn

variable {n : Name} {st₁ st₂ : Store}

theorem refl {st : Store} (h : st.Sound) (n : Name) : AgreeOn n st st :=
  ⟨h, h, rfl, fun _ => rfl, fun _ => rfl⟩

section sameScopes

variable (h : AgreeOn n st₁ st₂)

include h

theorem isLive (s : Scope) : st₁.isLive s = st₂.isLive s := by
  rw [isLive_eq_isSome_origin?, isLive_eq_isSome_origin?, h.origin]

theorem parent? (s : Scope) : st₁.parent? s = st₂.parent? s := by
  rw [parent?_eq_bind_origin?, parent?_eq_bind_origin?, h.origin]

theorem depth (s : Scope) : st₁.depth s = st₂.depth s := by
  rw [depth_eq_origin?, depth_eq_origin?, h.origin]

theorem policy (s : Scope) : st₁.policy s = st₂.policy s := by
  rw [policy_eq_origin?, policy_eq_origin?, h.origin]

theorem chain (s : Scope) : st₁.chain s = st₂.chain s :=
  chain_congr h.parent? s

theorem root (s : Scope) : st₁.root s = st₂.root s :=
  root_congr h.parent? s

theorem creation (s : Scope) : st₁.creation s = st₂.creation s := by
  rw [creation_eq_origin?, creation_eq_origin?, h.origin]

/-! ### What is read -/

theorem binds (s : Scope) : st₁.binds s n = st₂.binds s n := by
  rw [Store.binds, Store.binds, (h.sound₁.faithful_bindings s).contains_eq_isSome_find?,
    (h.sound₂.faithful_bindings s).contains_eq_isSome_find?, h.binding]

theorem binder? (s : Scope) : st₁.binder? s n = st₂.binder? s n := by
  rw [Store.binder?, Store.binder?, h.chain, funext h.binds]

theorem lookup (s : Scope) : st₁.lookup s n = st₂.lookup s n := by
  rw [Store.lookup, Store.lookup, h.chain]
  simp only [h.binding]

theorem mutability? (s : Scope) : st₁.mutability? s n = st₂.mutability? s n := by
  rw [Store.mutability?, Store.mutability?, h.chain]
  simp only [h.binding]

theorem contains (s : Scope) : st₁.contains s n = st₂.contains s n := by
  rw [Store.contains, Store.contains, h.chain, funext h.binds]

/-! ### What is assigned -/

theorem assignment (s : Scope) (v : Value) : st₁.assignment s n v = st₂.assignment s n v := by
  rw [Store.assignment, Store.assignment, h.binder?, h.root, h.policy]
  simp only [h.binding]

theorem assign (s : Scope) (v : Value) : (st₁.assign s n v).2 = (st₂.assign s n v).2 := by
  rw [h.sound₁.assign_eq, h.sound₂.assign_eq, h.binder?, h.root, h.policy]
  simp only [h.binding]
  split <;> split <;> rfl

end sameScopes

/-! ### Changes -/

theorem apply (h : AgreeOn n st₁ st₂) {c : Change} (hc₁ : c.Fits st₁) (hc₂ : c.Fits st₂)
    (hsound₁ : (c.apply st₁).Sound) (hsound₂ : (c.apply st₂).Sound) :
    AgreeOn n (c.apply st₁) (c.apply st₂) := by
  have hscopes : (c.apply st₁).next = (c.apply st₂).next ∧
      ∀ s, (c.apply st₁).origin? s = (c.apply st₂).origin? s := by
    by_cases hcreated : ∃ f, c = .created f
    · obtain ⟨f, rfl⟩ := hcreated
      refine ⟨?_, fun s => ?_⟩
      · rw [Change.apply, Change.apply, next_add, next_add, h.next]
      · rw [Change.apply, Change.apply, origin?_add, origin?_add, h.next, h.origin]
    · obtain ⟨hnext₁, horigin₁⟩ := st₁.origin?_apply (not_exists.mp hcreated)
      obtain ⟨hnext₂, horigin₂⟩ := st₂.origin?_apply (not_exists.mp hcreated)
      rw [hnext₁, hnext₂]
      exact ⟨h.next, fun s => (horigin₁ s).trans ((h.origin s).trans (horigin₂ s).symm)⟩
  refine ⟨hsound₁, hsound₂, hscopes.1, hscopes.2, fun s => ?_⟩
  rw [h.sound₁.find?_apply hc₁, h.sound₂.find?_apply hc₂, h.binding]

/-- A change that spares the name keeps the agreement with a store that does not change. -/
theorem apply_of_spares (h : AgreeOn n st₁ st₂) {c : Change} (hc : c.Fits st₁)
    (hsound : (c.apply st₁).Sound) (hspares : c.Spares n) : AgreeOn n (c.apply st₁) st₂ := by
  obtain ⟨hnext, horigin⟩ := origin?_apply hspares.created
  refine ⟨hsound, h.sound₂, hnext.trans h.next, fun s => (horigin s).trans (h.origin s),
    fun s => ?_⟩
  rw [h.sound₁.find?_apply hc, hspares.binding, h.binding]

end AgreeOn

end Store

namespace World

/-! ### Worlds that agree on a name -/

/-- The worlds have the same scopes, environments and bindings of the name. -/
structure AgreeOn (n : Name) (w₁ w₂ : World) : Prop where
  sound₁ : w₁.Sound
  sound₂ : w₂.Sound
  store : w₁.store.AgreeOn n w₂.store
  environments : w₁.environments = w₂.environments

namespace AgreeOn

variable {n : Name} {w₁ w₂ : World}

theorem environment? (h : AgreeOn n w₁ w₂) (e : EnvironmentId) :
    w₁.environment? e = w₂.environment? e := by
  rw [World.environment?, World.environment?, h.environments]

theorem scopeAt? (h : AgreeOn n w₁ w₂) (place : Place) :
    w₁.scopeAt? place = w₂.scopeAt? place := by
  cases place with
  | scope s => exact scopeAt?_scope_congr (h.store.isLive s)
  | current e => rw [World.scopeAt?, World.scopeAt?, h.environment?]
  | global e => rw [World.scopeAt?, World.scopeAt?, h.environment?]

theorem entry (h : AgreeOn n w₁ w₂) (e : EnvironmentId) (place : Place) :
    w₁.entry e place = w₂.entry e place := by
  simp only [World.entry, h.environment?, h.scopeAt?, h.store.depth, h.store.creation]

theorem entrance (h : AgreeOn n w₁ w₂) (e : EnvironmentId) (place : Place) :
    w₁.entrance e place = w₂.entrance e place := by
  simp only [World.entrance, h.environment?, h.scopeAt?, h.store.depth, h.store.next]

theorem change (h : AgreeOn n w₁ w₂) {a : Action} (ha : ∀ m, a.name? = some m → m = n) :
    w₁.change a = w₂.change a := by
  cases a with
  | newChild parent => exact changeAt_congr (h.scopeAt? parent) fun s _ => h.store.creation s
  | define place m v mutability => exact changeAt_congr (h.scopeAt? place) fun _ _ => rfl
  | assign place m v =>
      obtain rfl := ha m rfl
      exact changeAt_congr (h.scopeAt? place) fun s _ => h.store.assignment s v
  | enterBlock e => exact h.entry e _
  | enterCall e captured => exact h.entry e _
  | guardBlock e => exact h.entry e _
  | guardCall e captured => exact h.entry e _
  | finish e => simp only [World.change, ending, h.environment?]
  | discard e => simp only [World.change, ending, h.environment?]
  | _ => rfl

theorem move (h : AgreeOn n w₁ w₂) (a : Action) : w₁.move a = w₂.move a := by
  cases a with
  | newEnvironment config => simp only [World.move, h.store.next]
  | enterBlock e => exact h.entrance e _
  | enterCall e captured => exact h.entrance e _
  | guardBlock e => exact h.entrance e _
  | guardCall e captured => exact h.entrance e _
  | _ => rfl

theorem answer (h : AgreeOn n w₁ w₂) {a : Action} (ha : a.name? = some n) :
    (w₁.perform a).2 = (w₂.perform a).2 := by
  cases a with
  | define place m v mutability => exact answer_performAt_congr (h.scopeAt? place) fun _ _ => rfl
  | assign place m v =>
      obtain rfl := Option.some.inj ha
      exact answer_assign_congr (h.scopeAt? place) fun s _ => h.store.assign s v
  | get place m =>
      obtain rfl := Option.some.inj ha
      exact answer_get_congr (h.scopeAt? place) fun s _ => h.store.lookup s
  | lookup place m =>
      obtain rfl := Option.some.inj ha
      exact answer_performAt_congr (h.scopeAt? place) fun s _ =>
        congrArg Result.found (h.store.lookup s)
  | contains place m =>
      obtain rfl := Option.some.inj ha
      exact answer_performAt_congr (h.scopeAt? place) fun s _ =>
        congrArg Result.flag (h.store.contains s)
  | binds place m =>
      obtain rfl := Option.some.inj ha
      exact answer_performAt_congr (h.scopeAt? place) fun s _ =>
        congrArg Result.flag (h.store.binds s)
  | mutability place m =>
      obtain rfl := Option.some.inj ha
      exact answer_performAt_congr (h.scopeAt? place) fun s _ =>
        congrArg Result.mutability (h.store.mutability? s)
  | _ => cases ha

theorem perform (h : AgreeOn n w₁ w₂) {a : Action} (ha : ∀ m, a.name? = some m → m = n) :
    AgreeOn n (w₁.perform a).1 (w₂.perform a).1 := by
  have hafter₁ := h.sound₁.perform a
  have hafter₂ := h.sound₂.perform a
  refine ⟨hafter₁, hafter₂, ?_, ?_⟩
  · have hstore₁ := hafter₁.store
    have hstore₂ := hafter₂.store
    have hfits₁ := h.sound₁.fits_change a
    rw [h.sound₁.store_perform] at hstore₁ ⊢
    rw [h.sound₂.store_perform, ← h.change ha] at hstore₂ ⊢
    exact h.store.apply hfits₁ (h.change ha ▸ h.sound₂.fits_change a) hstore₁ hstore₂
  · rw [environments_perform, environments_perform, h.move, h.environments]

end AgreeOn

/-! ### Operations on other names -/

theorem spares_changeAt {n : Name} (w : World) (place : Place) {change : Scope → Change}
    (hchange : ∀ s, (change s).Spares n) : (w.changeAt place change).Spares n := by
  unfold changeAt
  split
  · exact hchange _
  · exact Change.spares_none n

/-- An operation on another name spares the name and moves nowhere. -/
theorem spares_change (w : World) {n m : Name} {a : Action} (ha : a.name? = some m) (hne : m ≠ n) :
    (w.change a).Spares n ∧ w.move a = .none := by
  cases a with
  | define place k v mutability =>
      obtain rfl := Option.some.inj ha
      exact ⟨w.spares_changeAt place fun s => Change.spares_defined hne s _, rfl⟩
  | assign place k v =>
      obtain rfl := Option.some.inj ha
      exact ⟨w.spares_changeAt place fun s => Change.spares_assignment hne w.store s v, rfl⟩
  | get place k => exact ⟨Change.spares_none n, rfl⟩
  | lookup place k => exact ⟨Change.spares_none n, rfl⟩
  | contains place k => exact ⟨Change.spares_none n, rfl⟩
  | binds place k => exact ⟨Change.spares_none n, rfl⟩
  | mutability place k => exact ⟨Change.spares_none n, rfl⟩
  | _ => cases ha

theorem only_cons (n : Name) (a : Action) (rest : List Action) :
    only n (a :: rest) = if a.name?.all (· = n) then a :: only n rest else only n rest :=
  List.filter_cons

theorem answersOn_cons (w : World) (n : Name) (a : Action) (rest : List Action) :
    w.answersOn n (a :: rest) =
      if a.name? = some n then (a, (w.perform a).2) :: (w.perform a).1.answersOn n rest
      else (w.perform a).1.answersOn n rest := by
  simp only [answersOn, performAll, List.zip_cons_cons, List.filter_cons, decide_eq_true_eq]

namespace AgreeOn

variable {n : Name} {w₁ w₂ : World}

theorem perform_other (h : AgreeOn n w₁ w₂) {m : Name} {a : Action} (ha : a.name? = some m)
    (hne : m ≠ n) : AgreeOn n (w₁.perform a).1 w₂ := by
  have hafter := h.sound₁.perform a
  obtain ⟨hspares, hmove⟩ := w₁.spares_change ha hne
  refine ⟨hafter, h.sound₂, ?_, ?_⟩
  · have hstore := hafter.store
    rw [h.sound₁.store_perform] at hstore ⊢
    exact h.store.apply_of_spares (h.sound₁.fits_change a) hstore hspares
  · rw [environments_perform, hmove]
    exact h.environments

/-! ### Runs -/

/-- A run and what is left of it go along together. -/
theorem performAll (h : AgreeOn n w₁ w₂) (run : List Action) :
    w₁.answersOn n run = w₂.answersOn n (only n run) ∧
      AgreeOn n (w₁.performAll run).1 (w₂.performAll (only n run)).1 := by
  induction run generalizing w₁ w₂ with
  | nil => exact ⟨rfl, h⟩
  | cons a rest ih =>
      rw [only_cons, answersOn_cons]
      cases hname : a.name? with
      | none =>
          -- The operation stays in the run, and its answer is not about the name.
          have hkept : AgreeOn n (w₁.perform a).1 (w₂.perform a).1 :=
            h.perform fun m hm => absurd (hname.symm.trans hm) (Option.some_ne_none m).symm
          obtain ⟨hanswers, hafter⟩ := ih hkept
          have hne : none ≠ some n := (Option.some_ne_none n).symm
          rw [if_neg hne, Option.all_none, if_pos rfl, answersOn_cons, hname, if_neg hne]
          exact ⟨hanswers, hafter⟩
      | some m =>
          rcases eq_or_ne m n with rfl | hne
          · have hkept : AgreeOn m (w₁.perform a).1 (w₂.perform a).1 :=
              h.perform fun k hk => Option.some.inj (hk.symm.trans hname)
            obtain ⟨hanswers, hafter⟩ := ih hkept
            rw [if_pos rfl, Option.all_some, decide_eq_true rfl, if_pos rfl, answersOn_cons, hname,
              if_pos rfl, h.answer hname, hanswers]
            exact ⟨rfl, hafter⟩
          · obtain ⟨hanswers, hafter⟩ := ih (h.perform_other hname hne)
            rw [if_neg fun hm => hne (Option.some.inj hm), Option.all_some, decide_eq_false hne,
              if_neg Bool.false_ne_true]
            exact ⟨hanswers, hafter⟩

end AgreeOn

/-- Leaving the operations on other names out of a run changes nothing for the name: its operations
answer the same, every scope has the same binding of it at the end, and every way to ask for it or to
assign to it gives the same. -/
theorem names_are_independent (n : Name) (run : List Action) :
    let whole := (World.empty.performAll run).1
    let part := (World.empty.performAll (only n run)).1
    World.empty.answersOn n run = World.empty.answersOn n (only n run) ∧
      whole.environments = part.environments ∧
      ∀ s, whole.store.origin? s = part.store.origin? s ∧
        (whole.store.bindings s).find? n = (part.store.bindings s).find? n ∧
        whole.store.binds s n = part.store.binds s n ∧
        whole.store.contains s n = part.store.contains s n ∧
        whole.store.lookup s n = part.store.lookup s n ∧
        whole.store.mutability? s n = part.store.mutability? s n ∧
        (whole.get s n).2 = (part.get s n).2 ∧
        ∀ v, (whole.assign s n v).2 = (part.assign s n v).2 := by
  intro whole part
  have hempty : AgreeOn n World.empty World.empty :=
    ⟨sound_empty, sound_empty, .refl Store.sound_empty n, rfl⟩
  obtain ⟨hanswers, h⟩ := hempty.performAll run
  refine ⟨hanswers, h.environments, fun s => ⟨h.store.origin s, h.store.binding s, h.store.binds s,
    h.store.contains s, h.store.lookup s, h.store.mutability? s, ?_, fun v => ?_⟩⟩
  · rw [get_snd, get_snd, h.store.lookup]
  · rw [assign_snd, assign_snd, h.store.assign]

end World

end ScopeChain
