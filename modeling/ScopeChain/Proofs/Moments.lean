import ScopeChain.Proofs.DefinitionOrder
import ScopeChain.Proofs.GlobalScopes

/-!
Moments of runs.  At each moment of a run the change that comes next has a reason: a definition in
the scope itself, an assignment that found a binding or found none, or the end of a run whose global
scope is emptied.
-/

namespace ScopeChain

theorem Change.mem_names_iff {c : Change} {s : Scope} {n : Name} {before : List Name} :
    n ∈ c.names s before ↔ c.name? s = some n ∨ (n ∈ before ∧ c.empties s = false) := by
  cases c with
  | defined t m x =>
      by_cases hts : t = s
      · simp only [names, empties, name?, hts, Bool.false_eq_true, if_false, if_true,
          Option.some.injEq, and_true]
        split
        · rename_i hm
          exact ⟨.inr, fun hn => hn.elim (fun heq => heq ▸ hm) id⟩
        · rw [List.mem_append, List.mem_singleton, or_comm, eq_comm]
      · simp [names, empties, name?, hts]
  | emptied t =>
      by_cases hts : t = s <;> simp [names, empties, name?, hts]
  | _ => simp [names, empties, name?]

namespace World

/-- At some moment of the run `p` holds of the world, the next operation and those after it. -/
def Sometime (w : World) (run : List Action) (p : World → Action → List Action → Prop) : Prop :=
  ∃ before a after, run = before ++ a :: after ∧ p (w.performAll before).1 a after

theorem not_sometime_nil (w : World) (p : World → Action → List Action → Prop) :
    ¬w.Sometime [] p := by
  rintro ⟨before, a, after, hrun, -⟩
  cases before <;> cases hrun

theorem sometime_cons {w : World} {a : Action} {rest : List Action}
    {p : World → Action → List Action → Prop} :
    w.Sometime (a :: rest) p ↔ p w a rest ∨ (w.perform a).1.Sometime rest p := by
  constructor
  · rintro ⟨before, b, after, hrun, hp⟩
    cases before with
    | nil =>
        cases hrun
        exact .inl hp
    | cons _ before =>
        cases hrun
        exact .inr ⟨before, b, after, rfl, hp⟩
  · rintro (hp | ⟨before, b, after, rfl, hp⟩)
    · exact ⟨[], a, rest, rfl, hp⟩
    · exact ⟨a :: before, b, after, rfl, hp⟩

theorem Sometime.of_part {w : World} {part run : List Action} {p : World → Action → Prop}
    (hpart : part <+: run) (h : w.Sometime part fun now a _ => p now a) :
    w.Sometime run fun now a _ => p now a := by
  obtain ⟨rest, rfl⟩ := hpart
  obtain ⟨before, a, after, rfl, hp⟩ := h
  exact ⟨before, a, after ++ rest, by simp, hp⟩

/-- The operation defines the name in the scope itself. -/
def Defines (w : World) (a : Action) (s : Scope) (n : Name) : Prop :=
  ∃ place v m, a = .define place n v m ∧ w.scopeAt? place = some s

/-- The operation assigns the name from a scope of the tree of `r` where no scope of the chain binds
it. -/
def AssignsUnbound (w : World) (a : Action) (r : Scope) (n : Name) : Prop :=
  ∃ place v t, a = .assign place n v ∧ w.scopeAt? place = some t ∧ w.store.root t = r ∧
    ∀ b ∈ w.store.chain t, w.store.binds b n = false

/-- The operation ends the run of an environment that has this global scope. -/
def EndsRunOf (w : World) (a : Action) (g : Scope) : Prop :=
  ∃ e env, (a = .finish e ∨ a = .discard e) ∧ w.environment? e = some env ∧ env.global = g

/-- No operation of the run ends a run of which this is the global scope. -/
def NeverEmpties (w : World) (run : List Action) (s : Scope) : Prop :=
  ¬w.Sometime run fun now a _ => now.EndsRunOf a s

/-- The changes that an operation may make, each with its reason. -/
inductive Caused (w : World) (a : Action) : Change → Prop where
  | none : w.Caused a .none
  | created {f} : w.Caused a (.created f)
  | defined {place s n v m} : a = .define place n v m → w.scopeAt? place = some s →
      w.Caused a (.defined s n ⟨v, m⟩)
  | unbound {place t n v} : a = .assign place n v → w.scopeAt? place = some t →
      w.store.binder? t n = .none → w.store.policy (w.store.root t) = .createGlobal →
      w.Caused a (.defined (w.store.root t) n ⟨v, .mutable⟩)
  | assigned {place t b n v x} : a = .assign place n v → w.scopeAt? place = some t →
      w.store.binder? t n = some b → (w.store.bindings b).find? n = some x →
      x.mutability = .mutable → w.Caused a (.assigned b n v)
  | emptied {e env} : a = .finish e ∨ a = .discard e → w.environment? e = some env →
      w.Caused a (.emptied env.global)

section causes

variable {w : World} {a : Action}

theorem caused_of_scope? {c : Change} (h : c.scope? = none) : w.Caused a c := by
  cases c with
  | none => exact .none
  | created f => exact .created
  | _ => cases h

theorem caused_changeAt {place : Place} {change : Scope → Change}
    (h : ∀ s, w.scopeAt? place = some s → w.Caused a (change s)) :
    w.Caused a (w.changeAt place change) := by
  unfold changeAt
  split
  · exact h _ ‹_›
  · exact .none

theorem Sound.caused_assignment (h : w.Sound) {place : Place} {n : Name} {v : Value}
    (ha : a = .assign place n v) {t : Scope} (ht : w.scopeAt? place = some t) :
    w.Caused a (w.store.assignment t n v) := by
  unfold Store.assignment
  split
  · rename_i b hb
    obtain ⟨x, hx⟩ := h.store.exists_find?_of_binds (Store.binds_of_binder? hb)
    rw [hx, Option.any_some]
    split
    · rename_i hm
      refine .assigned ha ht hb hx ?_
      cases hmutability : x.mutability with
      | mutable => rfl
      | immutable => rw [hmutability] at hm; cases hm
    · exact .none
  · rename_i hb
    split
    · rename_i hallows
      refine .unbound ha ht hb ?_
      cases hp : w.store.policy (w.store.root t) with
      | createGlobal => rfl
      | strict => rw [hp] at hallows; cases hallows
    · exact .none

theorem caused_ending {e : EnvironmentId} (ha : a = .finish e ∨ a = .discard e) :
    w.Caused a (w.ending e) := by
  unfold ending
  split
  · split
    · exact .none
    · exact .emptied ha ‹_›
  · exact .none

theorem Sound.caused (h : w.Sound) (a : Action) : w.Caused a (w.change a) := by
  cases a with
  | newScope => exact .created
  | newGlobal policy => exact .created
  | newChild parent => exact caused_changeAt fun s _ => caused_of_scope? (scope?_creation _ s)
  | define place n v m => exact caused_changeAt fun s hs => .defined rfl hs
  | assign place n v => exact caused_changeAt fun t ht => h.caused_assignment rfl ht
  | newEnvironment config => exact .created
  | enterBlock e => exact caused_of_scope? (w.scope?_entry e _)
  | enterCall e captured => exact caused_of_scope? (w.scope?_entry e _)
  | guardBlock e => exact caused_of_scope? (w.scope?_entry e _)
  | guardCall e captured => exact caused_of_scope? (w.scope?_entry e _)
  | finish e => exact caused_ending (.inl rfl)
  | discard e => exact caused_ending (.inr rfl)
  | _ => exact .none

theorem Separate.change_of_endsRunOf (h : w.Separate) {g : Scope} (ha : w.EndsRunOf a g) :
    w.change a = .emptied g := by
  obtain ⟨e, env, ha, he, rfl⟩ := ha
  have hending : w.ending e = .emptied env.global := by
    rw [ending, he]
    simp [h.running he]
  rcases ha with rfl | rfl
  · exact hending
  · exact hending

theorem change_of_defines {s : Scope} {n : Name} (ha : w.Defines a s n) :
    ∃ x, w.change a = .defined s n x := by
  obtain ⟨place, v, m, rfl, hs⟩ := ha
  exact ⟨⟨v, m⟩, by rw [change, changeAt, hs]⟩

theorem change_of_assignsUnbound {r : Scope} {n : Name} (ha : w.AssignsUnbound a r n)
    (hpolicy : w.store.policy r = .createGlobal) :
    ∃ x, w.change a = .defined r n x := by
  obtain ⟨place, v, t, rfl, ht, rfl, hfree⟩ := ha
  have hb : w.store.binder? t n = none := by
    rw [Store.binder?, List.find?_eq_none]
    exact fun b hmem => by rw [hfree b hmem]; exact Bool.false_ne_true
  refine ⟨⟨v, .mutable⟩, ?_⟩
  rw [change, changeAt, ht]
  dsimp only
  rw [Store.assignment, hb]
  dsimp only
  rw [hpolicy]
  rfl

/-- A name is defined anew in a scope by a definition there or by an assignment that found it
unbound under a policy that allows this. -/
theorem Sound.name?_change_iff (h : w.Sound) {s : Scope} {n : Name} :
    (w.change a).name? s = some n ↔
      w.Defines a s n ∨ (w.store.policy s = .createGlobal ∧ w.AssignsUnbound a s n) := by
  constructor
  · intro hname
    have hcaused := h.caused a
    generalize w.change a = c at hname hcaused
    cases hcaused with
    | none => cases hname
    | created => cases hname
    | defined ha hs =>
        obtain ⟨rfl, rfl⟩ := by simpa [Change.name?] using hname
        exact .inl ⟨_, _, _, ha, hs⟩
    | unbound ha ht hb hpolicy =>
        obtain ⟨rfl, rfl⟩ := by simpa [Change.name?] using hname
        refine .inr ⟨hpolicy, _, _, _, ha, ht, rfl, fun b hmem => ?_⟩
        simpa using List.find?_eq_none.mp hb b hmem
    | assigned => cases hname
    | emptied => cases hname
  · rintro (ha | ⟨hpolicy, ha⟩)
    · obtain ⟨x, hx⟩ := change_of_defines ha
      rw [hx]
      exact if_pos rfl
    · obtain ⟨x, hx⟩ := change_of_assignsUnbound ha hpolicy
      rw [hx]
      exact if_pos rfl

/-- A scope is emptied by the end of a run of which it is the global scope. -/
theorem Separate.empties_change_iff (h : w.Separate) (hw : w.Sound) {s : Scope} :
    (w.change a).empties s = true ↔ w.EndsRunOf a s := by
  constructor
  · intro hempties
    have hcaused := hw.caused a
    generalize w.change a = c at hempties hcaused
    cases hcaused with
    | emptied ha he => exact ⟨_, _, ha, he, of_decide_eq_true hempties⟩
    | _ => cases hempties
  · intro ha
    rw [h.change_of_endsRunOf ha]
    exact decide_eq_true rfl

end causes

/-- After an operation a scope binds what the operation defines in it, and what it bound before
unless it is emptied. -/
theorem Sound.binds_perform {w : World} (h : w.Sound) (a : Action) (s : Scope) (n : Name) :
    (w.perform a).1.store.binds s n = true ↔
      (w.change a).name? s = some n ∨
        (w.store.binds s n = true ∧ (w.change a).empties s = false) := by
  have hafter := (h.perform a).store.faithful_bindings s
  rw [Store.binds, hafter.contains_iff_mem_names, Store.binds,
    (h.store.faithful_bindings s).contains_iff_mem_names, ← Store.names, ← Store.names,
    h.store_perform a, h.store.names_apply (h.fits_change a), Change.mem_names_iff]

theorem Sound.empties_history {w : World} (h : w.Sound) (hw : w.Separate) {run : List Action}
    {s : Scope} (hends : w.NeverEmpties run s) : ∀ c ∈ w.history run, c.empties s = false := by
  induction run generalizing w with
  | nil => exact List.forall_mem_nil _
  | cons a rest ih =>
      rw [NeverEmpties, sometime_cons, not_or] at hends
      intro c hc
      rcases List.mem_cons.mp hc with rfl | hc
      · rw [Bool.eq_false_iff, Ne, hw.empties_change_iff h]
        exact hends.1
      · exact ih (h.perform a) (hw.perform h a) hends.2 c hc

end World

end ScopeChain
