import ScopeChain.Proofs.CommandRuns

/-!
Scripts follow runs.  Every step is a series of commands and of entries and ends of guarded blocks,
so wherever a script is its session follows a run; and when the script ends, what the session is
left with is as that run left it, whatever was reclaimed on the way.
-/

namespace ScopeChain.Session

open Script

variable {s : Session} {full : World} {p : Payloads} {a : Action} {sc : Scope}

namespace Follows

theorem command (h : s.Follows full p) (on : Option ScopeRef) (c : Command) :
    (s.command on c).FollowsRun := by
  unfold Session.command
  split
  · exact ⟨full, p, h.reply _⟩
  · rename_i on hon
    split
    · rename_i s' hc
      exact h.leads_perform (h.knows_namedScope hon) c s' hc
    · exact ⟨full, p, h.reply _⟩

/-! ### Steps -/

theorem beginGuarded (h : s.Follows full p) : s.beginGuarded.Follows full p := by
  unfold Session.beginGuarded
  split
  · exact (h.guarded _).reply _
  · exact h.reply _

theorem endGuarded (h : s.Follows full p) (g : Guard) (ending : Ending) :
    (s.endGuarded g ending).FollowsRun := by
  have hrestored := (h.act (a := .restore g) rfl Store.provides_none).guarded (s.guards - 1)
  unfold Session.endGuarded
  dsimp only
  split
  · exact ⟨_, p, hrestored.reply _⟩
  · exact ⟨_, p, hrestored.reply _⟩
  · exact ⟨_, p, hrestored⟩

theorem endAttempt (h : s.Follows full p) (ending : Ending) :
    (s.endAttempt ending).Follows full p := by
  unfold Session.endAttempt
  cases ending.panic with
  | none => exact (h.reply _).reply _
  | some message => exact (h.reply _).reply _

/-- A guarded block is entered by an operation on what the session holds. -/
theorem act_entrance (h : s.Follows full p) {door : Entrance} (ha : s.entrance door = .ok a) :
    (s.act a).1.Follows (full.perform a).1 p := by
  cases door with
  | block =>
      obtain ⟨e, -, rfl⟩ := ok_of_map ha
      exact h.act rfl Store.provides_none
  | call captured =>
      obtain ⟨sc, hsc, ha⟩ := ok_of_bind ha
      obtain ⟨e, -, ha⟩ := ok_of_bind ha
      cases ha
      exact h.act rfl (Store.provides_scope (.some (h.isLive_scope hsc)))

mutual

theorem step {s : Session} {full : World} {p : Payloads} (h : s.Follows full p) (x : Step) :
    (s.step x).1.FollowsRun := by
  cases x with
  | command on c =>
      rw [Session.step]
      exact h.command on c
  | panic on message =>
      rw [Session.step]
      split
      · exact ⟨full, p, h.reply _⟩
      · exact ⟨full, p, h⟩
  | attempt on body =>
      rw [Session.step]
      split
      · exact ⟨full, p, h.reply _⟩
      · obtain ⟨full', p', hbody⟩ := steps h false 0 body
        exact ⟨full', p', hbody.endAttempt _⟩
  | guarded on door untilFailure body =>
      rw [Session.step]
      split
      · exact ⟨full, p, h.reply _⟩
      · rename_i a ha
        obtain ⟨-, -, hdoor⟩ := ok_of_bind ha
        have hentered := h.act_entrance hdoor
        have hgiven := h.part.sound.provides_perform h.closed a
        split
        · rename_i g heq
          rw [heq] at hentered
          obtain ⟨full', p', hbody⟩ := steps hentered.beginGuarded untilFailure 0 body
          exact hbody.endGuarded g _
        · rename_i r _ heq
          rw [Follows.act_eq, Prod.mk.injEq] at heq
          obtain ⟨rfl, rfl⟩ := heq
          exact ⟨_, p, hentered.conclude hgiven none⟩

theorem steps {s : Session} {full : World} {p : Payloads} (h : s.Follows full p)
    (untilFailure : Bool) (ran : Nat) (xs : List Step) :
    (s.steps untilFailure ran xs).1.FollowsRun := by
  cases xs with
  | nil =>
      rw [Session.steps]
      exact ⟨full, p, h⟩
  | cons x rest =>
      obtain ⟨full', p', hstep⟩ := step h x
      rw [Session.steps]
      split
      · rename_i heq
        rw [heq] at hstep
        exact ⟨full', p', hstep⟩
      · rename_i heq
        rw [heq] at hstep
        split
        · exact ⟨full', p', hstep⟩
        · exact steps hstep untilFailure (ran + 1) rest

end

/-- At the end of a script the environment is given up and all events are in the transcript. -/
theorem close (h : s.Follows full p) (ending : Ending) :
    ∃ full', (s.close ending).Follows full' p ∧ (s.close ending).environment = none ∧
      (s.close ending).world.log = #[] := by
  have hanswered : ∀ answer, ∃ full', (s.reply answer).discardEnvironment.flush.Follows full' p ∧
      (s.reply answer).discardEnvironment.flush.environment = none := by
    intro answer
    obtain ⟨full', hclosed, hnone⟩ := (h.reply answer).discardEnvironment
    exact ⟨full', hclosed.flush, hnone⟩
  unfold Session.close
  cases ending.panic with
  | none =>
      obtain ⟨full', hclosed, hnone⟩ := hanswered (.ran ending.ran)
      exact ⟨full', hclosed, hnone, rfl⟩
  | some message =>
      obtain ⟨full', hclosed, hnone⟩ := hanswered (.panicked message)
      exact ⟨full', hclosed, hnone, rfl⟩

end Follows

/-! ### Scripts -/

/-- A script that is under way follows a run, wherever it is and whatever it dropped. -/
theorem followsRun_of_script (config : Config) (script : List Step) :
    (steps (empty.beginEnvironment config) false 0 script).1.FollowsRun :=
  (Follows.empty.beginEnvironment rfl config).steps false 0 script

/-- When a script drops the scope in a register, the census counts this handle and those that stay
with the session, so what is reclaimed is what nothing leads to any more. -/
theorem counted_of_script (config : Config) (script : List Step) {s : Session}
    (hs : (steps (empty.beginEnvironment config) false 0 script).1 = s) {name : String}
    (hsc : s.scopes[name]? = some sc) :
    ∃ items, s.world.store.Counted
      (.ofStore s.world.store s.allocations
        (sc :: { s with scopes := s.scopes.erase name }.heldScopes) s.values.values)
      items (.scope sc :: { s with scopes := s.scopes.erase name }.held) := by
  obtain ⟨full, p, h⟩ := followsRun_of_script config script
  rw [hs] at h
  have hlive : ∀ t ∈ [sc], s.world.store.isLive t = true :=
    fun t ht => List.mem_singleton.mp ht ▸ h.scopes name sc hsc
  have hnone : ∀ v ∈ ([] : List Value), s.world.store.Carries p v := List.forall_mem_nil _
  exact ⟨p.items, (h.dropScope name).counted hlive hnone⟩

/-- A script reports what some run of operations reports in a world where nothing is reclaimed, and
what is left in the end is as in that world: every scope and every value in a register has all that
it needs, and around each scope that is there stand the same scopes, with the same bindings, in
which names find the same values. -/
theorem run_as_without_reclaiming (config : Config) (script : List Step) :
    ∃ w p, (∃ actions, w = (World.empty.performAll actions).1) ∧
      (run config script).events = w.log.toList ∧
      (∀ e, (run config script).world.environment? e = none ∧ w.environment? e = none) ∧
      (∀ (name : String) (sc : Scope), (run config script).scopes[name]? = some sc →
        (run config script).world.store.isLive sc = true) ∧
      (∀ (name : String) (v : Value), (run config script).values[name]? = some v →
        (run config script).world.store.Carries p v) ∧
      ∀ t, (run config script).world.store.isLive t = true →
        w.store.frame? t = (run config script).world.store.frame? t ∧
        w.store.chain t = (run config script).world.store.chain t ∧
        ∀ n, w.store.lookup t n = (run config script).world.store.lookup t n := by
  obtain ⟨_, p, h⟩ := followsRun_of_script config script
  obtain ⟨w, hend, hnone, hlog⟩ := h.close (steps (empty.beginEnvironment config) false 0 script).2
  have hgone : ∀ e, (run config script).world.environment? e = none := by
    intro e
    refine Option.eq_none_iff_forall_ne_some.mpr fun env he => ?_
    cases hnone.symm.trans (hend.only he)
  have hsound := hend.part.sound.store
  have hfull := hend.part.sound_full.store
  have hevents := hend.log
  rw [hlog, List.append_nil] at hevents
  refine ⟨w, p, hend.run, hevents, fun e => ⟨hgone e, ?_⟩, hend.scopes, hend.values,
    fun t ht => ?_⟩
  · rw [hend.part.environment?_eq]
    exact hgone e
  · exact ⟨hend.part.store.frame?_eq t ht, hend.part.store.chain_eq hsound hfull ht,
      hend.part.store.lookup_eq hsound hfull ht⟩

end ScopeChain.Session
