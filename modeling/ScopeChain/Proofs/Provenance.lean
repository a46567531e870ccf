import ScopeChain.Proofs.ChainShape
import ScopeChain.Proofs.Moments

/-!
Where bindings come from.  A scope that stands in another binds what was defined in it.  A global
scope also binds, if its policy creates globals, what was assigned in its tree while nothing on the
chain bound it.  No other operation adds a binding anywhere.
-/

namespace ScopeChain.World

/-- The operation binds the name in a scope that need not have bound it before. -/
def BindsAnew (w : World) (a : Action) (s : Scope) (n : Name) : Prop :=
  w.Defines a s n ∨ (w.store.policy s = .createGlobal ∧ w.AssignsUnbound a s n)

variable {w : World} {s : Scope} {n : Name}

/-- After a run a scope binds what was bound in it at some moment and not taken from it since. -/
theorem Sound.binds_performAll (h : w.Sound) (hw : w.Separate) (run : List Action) :
    (w.performAll run).1.store.binds s n = true ↔
      (w.store.binds s n = true ∧ w.NeverEmpties run s) ∨
        w.Sometime run fun now a after =>
          now.BindsAnew a s n ∧ (now.perform a).1.NeverEmpties after s := by
  induction run generalizing w with
  | nil =>
      have hnever : w.NeverEmpties [] s := w.not_sometime_nil _
      have hnot := w.not_sometime_nil fun now a after =>
        now.BindsAnew a s n ∧ (now.perform a).1.NeverEmpties after s
      change w.store.binds s n = true ↔ _
      simp [hnever, hnot]
  | cons a rest ih =>
      have hempties : (w.change a).empties s = false ↔ ¬w.EndsRunOf a s := by
        rw [← hw.empties_change_iff h, Bool.not_eq_true]
      have hnever : w.NeverEmpties (a :: rest) s ↔
          ¬w.EndsRunOf a s ∧ (w.perform a).1.NeverEmpties rest s := by
        rw [NeverEmpties, sometime_cons, not_or]
        rfl
      change ((w.perform a).1.performAll rest).1.store.binds s n = true ↔ _
      rw [ih (h.perform a) (hw.perform h a), h.binds_perform, h.name?_change_iff, hempties, hnever,
        sometime_cons, ← BindsAnew]
      tauto

/-! ### Moments and the world that the run reaches -/

theorem Sound.grows_of_moment (h : w.Sound) (before after : List Action) :
    (w.performAll before).1.store.Grows (w.performAll (before ++ after)).1.store := by
  rw [performAll_append]
  exact (h.performAll before).grows_performAll after

theorem Separate.parent?_of_scopeAt?_global (h : w.Separate) {e : EnvironmentId}
    (hs : w.scopeAt? (.global e) = some s) : w.store.parent? s = none := by
  obtain ⟨env, he, rfl⟩ := Option.map_eq_some_iff.mp hs
  exact h.global he

theorem Separate.parent?_of_endsRunOf (h : w.Separate) {a : Action} (ha : w.EndsRunOf a s) :
    w.store.parent? s = none := by
  obtain ⟨e, env, -, he, rfl⟩ := ha
  exact h.global he

theorem Sound.isLive_of_endsRunOf (h : w.Sound) {a : Action} (ha : w.EndsRunOf a s) :
    w.store.isLive s = true := by
  obtain ⟨e, env, -, he, rfl⟩ := ha
  exact h.held he List.mem_cons_self

theorem Sound.global_of_assignsUnbound (h : w.Sound) {a : Action} (ha : w.AssignsUnbound a s n) :
    w.store.isLive s = true ∧ w.store.parent? s = none := by
  obtain ⟨place, v, t, -, ht, rfl, -⟩ := ha
  exact ⟨h.store.isLive_root (h.isLive_scopeAt? ht), h.store.parent?_root t⟩

/-- A scope that stands in another one is never emptied. -/
theorem neverEmpties_of_parent? {before after : List Action}
    (hs : (World.empty.performAll (before ++ after)).1.store.parent? s ≠ none) :
    (World.empty.performAll before).1.NeverEmpties after s := by
  rintro ⟨first, a, rest, rfl, hends⟩
  have hsound := sound_of_run (before ++ first)
  have hgrows := sound_empty.grows_of_moment (before ++ first) (a :: rest)
  rw [← performAll_append] at hends
  rw [← List.append_assoc] at hs
  rw [hgrows.parent? (hsound.isLive_of_endsRunOf hends)] at hs
  exact hs ((separate_of_run (before ++ first)).parent?_of_endsRunOf hends)

theorem binds_of_run_iff (actions : List Action) :
    (World.empty.performAll actions).1.store.binds s n = true ↔
      World.empty.Sometime actions fun now a after =>
        now.BindsAnew a s n ∧ (now.perform a).1.NeverEmpties after s := by
  rw [sound_empty.binds_performAll separate_empty]
  apply or_iff_right
  rintro ⟨hb, -⟩
  cases Store.isLive_of_binds hb

theorem binds_inside_iff {actions : List Action}
    (hs : (World.empty.performAll actions).1.store.parent? s ≠ none) :
    (World.empty.performAll actions).1.store.binds s n = true ↔
      World.empty.Sometime actions fun now a _ =>
        ∃ place v m, a = .define place n v m ∧ now.scopeAt? place = some s ∧
          ∀ e, place ≠ .global e := by
  rw [binds_of_run_iff]
  constructor
  · rintro ⟨before, a, after, rfl, hanew, -⟩
    have hgrows := sound_empty.grows_of_moment before (a :: after)
    rcases hanew with ⟨place, v, m, rfl, hplace⟩ | ⟨-, hassigns⟩
    · refine ⟨before, _, after, rfl, place, v, m, rfl, hplace, ?_⟩
      rintro e rfl
      have hlive := (sound_of_run before).isLive_scopeAt? hplace
      have hglobal := (separate_of_run before).parent?_of_scopeAt?_global hplace
      exact hs ((hgrows.parent? hlive).trans hglobal)
    · obtain ⟨hlive, hglobal⟩ := (sound_of_run before).global_of_assignsUnbound hassigns
      exact absurd ((hgrows.parent? hlive).trans hglobal) hs
  · rintro ⟨before, a, after, rfl, place, v, m, rfl, hplace, -⟩
    have hnever := @neverEmpties_of_parent? s (before ++ [.define place n v m]) after
      (by simpa using hs)
    rw [performAll_append] at hnever
    exact ⟨before, _, after, rfl, .inl ⟨place, v, m, rfl, hplace⟩, hnever⟩

theorem binds_global_iff (actions : List Action) :
    (World.empty.performAll actions).1.store.binds s n = true ↔
      World.empty.Sometime actions fun now a after =>
        (now.Defines a s n ∨ ((World.empty.performAll actions).1.store.policy s = .createGlobal ∧
          now.AssignsUnbound a s n)) ∧ (now.perform a).1.NeverEmpties after s := by
  -- The policy of a scope that is there at some moment is the one that it has at the end.
  have hpolicy : ∀ {before a after}, actions = before ++ a :: after →
      (World.empty.performAll before).1.AssignsUnbound a s n →
      (World.empty.performAll actions).1.store.policy s =
        (World.empty.performAll before).1.store.policy s := by
    rintro before a after rfl hassigns
    have hgrows := sound_empty.grows_of_moment before (a :: after)
    exact hgrows.policy ((sound_of_run before).global_of_assignsUnbound hassigns).1
  rw [binds_of_run_iff]
  constructor
  · rintro ⟨before, a, after, hrun, hdefines | ⟨hcreates, hassigns⟩, hnever⟩
    · exact ⟨before, a, after, hrun, .inl hdefines, hnever⟩
    · exact ⟨before, a, after, hrun, .inr ⟨(hpolicy hrun hassigns).trans hcreates, hassigns⟩, hnever⟩
  · rintro ⟨before, a, after, hrun, hdefines | ⟨hcreates, hassigns⟩, hnever⟩
    · exact ⟨before, a, after, hrun, .inl hdefines, hnever⟩
    · exact ⟨before, a, after, hrun,
        .inr ⟨(hpolicy hrun hassigns).symm.trans hcreates, hassigns⟩, hnever⟩

/-- Without a definition in it a scope gains no binding, unless it is the global scope of a tree that
creates globals. -/
theorem Sound.binds_of_undefined (h : w.Sound) (hw : w.Separate) {run : List Action}
    (hkind : (w.performAll run).1.store.policy ((w.performAll run).1.store.root s) = .strict ∨
      (w.performAll run).1.store.parent? s ≠ none)
    (hdefines : ¬w.Sometime run fun now a _ => now.Defines a s n)
    (hb : (w.performAll run).1.store.binds s n = true) : w.store.binds s n = true := by
  obtain ⟨hbefore, -⟩ | ⟨before, a, after, rfl, hanew, -⟩ := (h.binds_performAll hw run).mp hb
  · exact hbefore
  · rcases hanew with hdefined | ⟨hcreates, hassigns⟩
    · exact absurd ⟨before, a, after, rfl, hdefined⟩ hdefines
    · have hgrows := h.grows_of_moment before (a :: after)
      obtain ⟨hlive, hglobal⟩ := (h.performAll before).global_of_assignsUnbound hassigns
      have hparent := (hgrows.parent? hlive).trans hglobal
      rcases hkind with hstrict | hinside
      · rw [(h.performAll _).store.root_eq, hparent] at hstrict
        cases hstrict.symm.trans ((hgrows.policy hlive).trans hcreates)
      · exact absurd hparent hinside

/-- After any run a scope inside another one binds the names that were defined in it, and a global
scope those that were bound in it since its last end of a run, by a definition or, under the policy
that creates globals, by an assignment that found no binding.  So without a definition in it no run
adds a binding to a scope of a strict tree, nor to any scope that stands in another one. -/
theorem bindings_have_provenance (actions : List Action) (s : Scope) (n : Name) :
    let w := (World.empty.performAll actions).1
    (w.store.parent? s ≠ none →
      (w.store.binds s n = true ↔ World.empty.Sometime actions fun now a _ =>
        ∃ place v m, a = .define place n v m ∧ now.scopeAt? place = some s ∧
          ∀ e, place ≠ .global e)) ∧
      (w.store.parent? s = none →
        (w.store.binds s n = true ↔ World.empty.Sometime actions fun now a after =>
          (now.Defines a s n ∨ (w.store.policy s = .createGlobal ∧ now.AssignsUnbound a s n)) ∧
            (now.perform a).1.NeverEmpties after s)) ∧
      ∀ later, let after := (w.performAll later).1
        after.store.policy (after.store.root s) = .strict ∨ after.store.parent? s ≠ none →
          (¬w.Sometime later fun now a _ => now.Defines a s n) →
            after.store.binds s n = true → w.store.binds s n = true := by
  intro w
  refine ⟨binds_inside_iff, fun _ => binds_global_iff actions, fun later => ?_⟩
  exact (sound_of_run actions).binds_of_undefined (separate_of_run actions)

/-- An assignment in a block to an unbound name binds it in the global scope and not in the block. -/
theorem block_unbound_by_assignment :
    let w := (World.empty.performAll [.newEnvironment {}, .enterBlock ⟨0⟩]).1
    let after := (w.performAll [.assign (.current ⟨0⟩) ⟨"x"⟩ .void]).1
    after.store.parent? ⟨1⟩ ≠ none ∧ after.store.binds ⟨0⟩ ⟨"x"⟩ = true ∧
      after.store.binds ⟨1⟩ ⟨"x"⟩ = false := by
  intro w after
  have hinside : after.store.parent? ⟨1⟩ ≠ none := by decide
  have hdefines : ¬w.Sometime [.assign (.current ⟨0⟩) ⟨"x"⟩ .void] fun now a _ =>
      now.Defines a ⟨1⟩ ⟨"x"⟩ := by
    rw [sometime_cons]
    rintro (⟨_, _, _, ha, -⟩ | hnil)
    · cases ha
    · exact not_sometime_nil _ _ hnil
  have hlaw := (bindings_have_provenance [.newEnvironment {}, .enterBlock ⟨0⟩] ⟨1⟩ ⟨"x"⟩).2.2
    [.assign (.current ⟨0⟩) ⟨"x"⟩ .void] (.inr hinside) hdefines
  refine ⟨hinside, by decide, Bool.eq_false_iff.mpr fun hb => ?_⟩
  exact absurd (hlaw hb) (by decide)

end ScopeChain.World
