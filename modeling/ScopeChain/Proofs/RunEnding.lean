import ScopeChain.Proofs.ChainShape
import ScopeChain.Proofs.EmptiedScope
import ScopeChain.Proofs.Reports
import ScopeChain.Proofs.DefinitionOrder
import ScopeChain.Proofs.WrittenValues
import Mathlib.Data.Set.Card

/-!
The end of a run.  It empties the global scope of its environment and changes no other scope, it is
reported once with the number of names that were bound, and the emptied scope goes on as a new
global scope of its policy would.
-/

namespace ScopeChain

theorem Store.Sound.ncard_binds {st : Store} (h : st.Sound) (s : Scope) :
    {n | st.binds s n = true}.ncard = (st.bindings s).size := by
  have hnames : {n | st.binds s n = true} = ((st.bindings s).names.toFinset : Set Name) := by
    ext n
    simp [binds, (h.faithful_bindings s).contains_iff_mem_names]
  rw [hnames, Set.ncard_coe_finset,
    List.toFinset_card_of_nodup (h.faithful_bindings s).nodup_names, Bindings.length_names]

/-- Whether the event tells of the end of a run. -/
def Event.isTearDown : Event → Bool
  | .environmentTornDown _ => true
  | _ => false

namespace World

/-- The number of the environments that were begun and are gone. -/
def gone (w : World) : Nat :=
  w.environments.countP Option.isNone

variable {w : World} {a : Action} {e : EnvironmentId} {env : Environment}

theorem size_environments_perform_le (w : World) (a : Action) :
    w.environments.size ≤ (w.perform a).1.environments.size := by
  rw [environments_perform]
  cases w.move a <;> simp [Move.apply]

/-! ### Counting -/

theorem countP_modify (environments : Array (Option Environment)) (i : Nat)
    (change : Environment → Environment) :
    (environments.modify i (·.map change)).countP Option.isNone =
      environments.countP Option.isNone := by
  -- The change does not touch what `isNone` tells, so the arrays of the answers are the same.
  have hmap : (environments.modify i (·.map change)).map Option.isNone =
      environments.map Option.isNone := by
    apply Array.ext_getElem?
    intro j
    rw [Array.getElem?_map, Array.getElem?_map, Array.getElem?_modify]
    split
    · simp [Option.map_map, Function.comp_def]
    · rfl
  have hcount := congrArg (Array.countP id) hmap
  rwa [Array.countP_map, Array.countP_map] at hcount

theorem gone_perform_of_move (hmove : ∀ e, w.move a ≠ .ended e) :
    (w.perform a).1.gone = w.gone := by
  rw [gone, gone, environments_perform]
  cases hm : w.move a with
  | none => rfl
  | begun new => simp [Move.apply]
  | entered e s => exact countP_modify _ _ _
  | left e => exact countP_modify _ _ _
  | restored g => exact countP_modify _ _ _
  | ended e => exact absurd hm (hmove e)

theorem gone_perform_of_ended (he : w.environment? e = some env) (hmove : w.move a = .ended e) :
    (w.perform a).1.gone = w.gone + 1 := by
  have hlt := index_lt_of_environment? he
  have hslot : w.environments[e.index] = some env := by
    rw [environment?, Array.getElem?_eq_getElem hlt] at he
    exact he
  rw [gone, gone, environments_perform, hmove, Move.apply, Array.setIfInBounds, dif_pos hlt,
    Array.countP_set, hslot]
  rfl

theorem countP_reports_of_move (hmove : ∀ e, w.move a ≠ .ended e) :
    (w.reports a).countP Event.isTearDown = 0 := by
  have hat : ∀ place (events : Scope → List Event),
      (∀ s, (events s).countP Event.isTearDown = 0) →
        (w.reportsAt place events).countP Event.isTearDown = 0 := by
    intro place events hevents
    unfold reportsAt
    split
    · exact hevents _
    · rfl
  have hentry : ∀ e place, (w.entryReports e place).countP Event.isTearDown = 0 := by
    intro e place
    unfold entryReports
    split
    · split <;> rfl
    · rfl
  cases a with
  | newChild parent => exact hat _ _ fun _ => rfl
  | define place n v m => exact hat _ _ fun _ => rfl
  | assign place n v =>
      refine hat _ _ fun s => ?_
      unfold assignmentReports
      split
      · rfl
      · split <;> rfl
  | get place n =>
      refine hat _ _ fun s => ?_
      split <;> rfl
  | enterBlock e => exact hentry e _
  | enterCall e captured => exact hentry e _
  | guardBlock e => exact hentry e _
  | guardCall e captured => exact hentry e _
  | finish e => exact absurd rfl (hmove e)
  | discard e => exact absurd rfl (hmove e)
  | _ => rfl

theorem reports_of_ended (hmove : w.move a = .ended e) : w.reports a = w.endingReports e := by
  obtain rfl | rfl := ends_of_ended hmove <;> rfl

theorem perform_of_absent (he : w.environment? e = none) :
    w.perform (.finish e) = (w, .absent) ∧ w.perform (.discard e) = (w, .done) := by
  have hend : w.endRun e = (w, 0) := by
    apply endRun_of_finished
    intro env hsome
    cases he.symm.trans hsome
  constructor
  · simp only [perform, he]
  · simp only [perform, discard, hend, setIfInBounds_of_absent he]

/-- An operation reports the end of a run for the environment that it ends. -/
theorem Separate.countP_reports (h : w.Separate) (a : Action) :
    w.gone + (w.reports a).countP Event.isTearDown = (w.perform a).1.gone := by
  by_cases hmove : ∃ e, w.move a = .ended e
  · obtain ⟨e, hmove⟩ := hmove
    rw [reports_of_ended hmove, endingReports]
    cases he : w.environment? e with
    | some env =>
        rw [gone_perform_of_ended he hmove]
        simp [h.running he, Event.isTearDown]
    | none =>
        -- The end of a run that is over changes nothing and is not reported.
        obtain ⟨hfinish, hdiscard⟩ := perform_of_absent he
        obtain rfl | rfl := ends_of_ended hmove
        · rw [hfinish]
          rfl
        · rw [hdiscard]
          rfl
  · rw [not_exists] at hmove
    rw [gone_perform_of_move hmove, countP_reports_of_move hmove, Nat.add_zero]

/-- The ends of runs that were reported are as many as the environments that are gone. -/
theorem countP_log_of_run (actions : List Action) :
    (World.empty.performAll actions).1.log.toList.countP Event.isTearDown =
      (World.empty.performAll actions).1.gone := by
  induction actions using List.reverseRecOn with
  | nil => rfl
  | append_singleton actions a ih =>
      have hlogs : (World.empty.performAll actions).1.Logs _ _ := (sound_of_run actions).logs_perform a
      rw [performAll_append]
      change ((World.empty.performAll actions).1.perform a).1.log.toList.countP _ =
        ((World.empty.performAll actions).1.perform a).1.gone
      rw [hlogs, List.countP_append, ih, (separate_of_run actions).countP_reports]

/-! ### An environment that is gone -/

theorem absent_perform (hlt : e.index < w.environments.size) (he : w.environment? e = none)
    (a : Action) : (w.perform a).1.environment? e = none := by
  by_contra hne
  obtain ⟨env, hafter⟩ := Option.ne_none_iff_exists'.mp hne
  obtain ⟨before, hbefore, -⟩ | ⟨-, -, hindex, -⟩ := environment_cases hafter
  · cases he.symm.trans hbefore
  · omega

/-- An environment that is gone does not come back. -/
theorem absent_performAll (hlt : e.index < w.environments.size) (he : w.environment? e = none)
    (run : List Action) : (w.performAll run).1.environment? e = none := by
  induction run generalizing w with
  | nil => exact he
  | cons a rest ih =>
      exact ih (hlt.trans_le (w.size_environments_perform_le a)) (absent_perform hlt he a)

/-! ### The end -/

/-- No chain in the tree of an environment leads through the global scope of another one. -/
theorem Separate.not_mem_chain (hw : w.Separate) (h : w.Sound) {e' : EnvironmentId}
    {env' : Environment} {t : Scope} (he : w.environment? e = some env)
    (he' : w.environment? e' = some env') (hne : e' ≠ e) (ht : w.store.root t = env'.global) :
    env.global ∉ w.store.chain t := by
  intro hmem
  have hroot := h.store.root_of_mem_chain hmem
  rw [h.store.root_eq, hw.global he, ht] at hroot
  exact hne (hw.injective he he' hroot).symm

theorem discard_eq (he : w.environment? e = some env) (hrunning : env.finished = false) :
    (w.discard e).store = w.store.clear env.global ∧
      (w.discard e).log = w.log.push (.environmentTornDown (w.store.bindings env.global).size) ∧
      (w.endRun e).2 = (w.store.bindings env.global).size := by
  simp only [discard, endRun, he, hrunning]
  exact ⟨rfl, rfl, rfl⟩

/-- Giving up an environment after the end of its run does nothing but that. -/
theorem perform_finish (he : w.environment? e = some env) :
    w.perform (.finish e) = (w.discard e, .released (w.endRun e).2) := by
  have hfinish : w.finish e = (w.discard e, (w.endRun e).2) := by
    simp only [finish, discard, endRun_of_finished fun _ => finished_of_endRun]
  simp only [perform, he, hfinish]

/-- The end of a run is reported once, with the number of the names that its global scope bound, and
empties that scope.  What stands in other scopes stays, and the environment does not come back.  From
then on the global scope is told by what happens to it, as a new one is. -/
theorem run_ends_once (actions : List Action) {e : EnvironmentId} {env : Environment}
    (he : (World.empty.performAll actions).1.environment? e = some env) :
    let w := (World.empty.performAll actions).1
    let g := env.global
    let released := {n | w.store.binds g n = true}.ncard
    let after := w.discard e
    w.perform (.finish e) = (after, .released released) ∧ w.perform (.discard e) = (after, .done) ∧
      after.log.toList = w.log.toList ++ [.environmentTornDown released] ∧
      w.log.toList.countP Event.isTearDown = w.gone ∧ after.gone = w.gone + 1 ∧
      w.store.EmptiedAt after.store g ∧
      (∀ e' env', w.environment? e' = some env' → e' ≠ e →
        after.environment? e' = some env' ∧ ∀ t, w.store.root t = env'.global →
          after.store.frame? t = w.store.frame? t ∧
            ∀ n, after.store.lookup t n = w.store.lookup t n ∧
              after.store.mutability? t n = w.store.mutability? t n) ∧
      ∀ later, let final := (after.performAll later).1
        final.perform (.finish e) = (final, .absent) ∧ final.perform (.discard e) = (final, .done) ∧
          final.store.names g = (after.history later).names g ∧
          ∀ n, let found := (final.store.bindings g).find? n
            found.map Binding.value = (after.history later).value? g n ∧
              found.map Binding.mutability = (after.history later).mutability? g n := by
  intro w g released after
  have h : w.Sound := sound_of_run actions
  have hw : w.Separate := separate_of_run actions
  have hafter : after.Sound := h.perform (.discard e)
  obtain ⟨hstore, hlog, hcount⟩ := discard_eq he (hw.running he)
  have hreleased : (w.store.bindings g).size = released := (h.store.ncard_binds g).symm
  have hglobal : w.store.parent? g = none := hw.global he
  have hempty : after.store.bindings g = .empty := by
    rw [hstore, Store.bindings_clear_self]
  have hemptied : w.store.EmptiedAt after.store g := by
    rw [hstore]
    exact h.store.emptiedAt_clear (h.held he List.mem_cons_self) hglobal
  have habsent : ∀ later, ((after.performAll later).1).environment? e = none := by
    have hlt : e.index < after.environments.size :=
      (index_lt_of_environment? he).trans_le (w.size_environments_perform_le (.discard e))
    have hgone : after.environment? e = none :=
      (environment?_perform he (.discard e)).trans (if_pos rfl)
    exact absent_performAll hlt hgone
  refine ⟨?_, rfl, ?_, countP_log_of_run actions, ?_, hemptied, ?_, fun later => ?_⟩
  · rw [perform_finish he, hcount, hreleased]
  · rw [hlog, Array.toList_push, hreleased]
  · exact gone_perform_of_ended (a := .discard e) he rfl
  · intro e' env' he' hne
    refine ⟨?_, fun t ht => ?_⟩
    · exact (environment?_perform he' (.discard e)).trans (if_neg hne.symm)
    · have hother : g ∉ w.store.chain t := hw.not_mem_chain h he he' hne ht
      have hbinder : ∀ n, w.store.binder? t n ≠ some g := fun n hb =>
        hother (List.mem_of_find?_eq_some hb)
      have htg : t ≠ g := fun heq => hother (heq ▸ h.store.self_mem_chain t)
      refine ⟨hemptied.others t htg, fun n => ⟨?_, ?_⟩⟩
      · rw [hemptied.lookup, if_neg (hbinder n)]
      · rw [hemptied.mutability?, if_neg (hbinder n)]
  · obtain ⟨hfinish, hdiscard⟩ := perform_of_absent (habsent later)
    exact ⟨hfinish, hdiscard, hafter.names_performAll hempty later,
      hafter.find?_performAll hempty later⟩

/-- A run that ends in a block, with a variable defined twice and one made by assignment. -/
theorem run_ends_in_block :
    let w := (World.empty.performAll [.newEnvironment {},
      .define (.global ⟨0⟩) ⟨"x"⟩ .void .mutable, .enterBlock ⟨0⟩,
      .define (.global ⟨0⟩) ⟨"x"⟩ (.bool true) .immutable,
      .assign (.current ⟨0⟩) ⟨"y"⟩ .void]).1
    w.environment? ⟨0⟩ = some ⟨[⟨1⟩, ⟨0⟩], ⟨0⟩, {}, false⟩ ∧
      w.perform (.finish ⟨0⟩) = (w.discard ⟨0⟩, .released 2) ∧
      (w.discard ⟨0⟩).log.toList = w.log.toList ++ [.environmentTornDown 2] ∧
      (w.discard ⟨0⟩).store.lookup ⟨1⟩ ⟨"y"⟩ = none := by
  intro w
  have he : w.environment? ⟨0⟩ = some ⟨[⟨1⟩, ⟨0⟩], ⟨0⟩, {}, false⟩ := rfl
  have htwo : {n | w.store.binds ⟨0⟩ n = true}.ncard = 2 := by
    rw [(sound_of_run _).store.ncard_binds]
    rfl
  obtain ⟨hfinish, -, hlog, -, -, hemptied, -⟩ := run_ends_once _ he
  have hbinder : w.store.binder? ⟨1⟩ ⟨"y"⟩ = some ⟨0⟩ := by decide
  refine ⟨he, ?_, ?_, ?_⟩
  · rw [hfinish, htwo]
  · rw [hlog, htwo]
  · exact (hemptied.lookup ⟨1⟩ ⟨"y"⟩).trans (if_pos hbinder)

end World

end ScopeChain
