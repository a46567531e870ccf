import ScopeChain.Proofs.Reports
import ScopeChain.Proofs.TwoWorlds

/-!
A world that lost some scopes.  Where the scopes that are left are closed under links, everything
that is read from one of them is as if no scope had been lost, and so is every operation that works
there: it answers the same, reports the same and makes the same change.
-/

namespace ScopeChain

/-- The scope that a place names. -/
def Place.scope? : Place → Option Scope
  | .scope s => some s
  | .current _ | .global _ => none

/-- The scope that an operation names. -/
def Action.scope? : Action → Option Scope
  | .newChild place | .define place _ _ _ | .assign place _ _ | .get place _ | .lookup place _
  | .contains place _ | .binds place _ | .mutability place _ => place.scope?
  | .enterCall _ s | .guardCall _ s => some s
  | .newScope | .newGlobal _ | .newEnvironment _ | .enterBlock _ | .leave _ | .guardBlock _
  | .restore _ | .capture _ | .closure _ _ _ _ | .finish _ | .discard _ => none

namespace Store

/-- The scope is in the store, if there is one. -/
def Knows (st : Store) (named : Option Scope) : Prop :=
  ∀ s, named = some s → st.isLive s = true

theorem Knows.none (st : Store) : st.Knows .none := by
  intro s hs
  cases hs

theorem Knows.some {st : Store} {s : Scope} (hs : st.isLive s = true) : st.Knows (.some s) := by
  intro t ht
  rwa [← Option.some.inj ht]

/-- The store has lost some scopes of the full one, and each of the others has its frame. -/
structure PartOf (st full : Store) : Prop where
  size_eq : full.frames.size = st.frames.size
  frame?_eq : ∀ s, st.isLive s = true → full.frame? s = st.frame? s

namespace PartOf

variable {st full : Store} {s : Scope} {n : Name} {v : Value}

theorem refl (st : Store) : st.PartOf st :=
  ⟨rfl, fun _ _ => rfl⟩

theorem next_eq (h : st.PartOf full) : full.next = st.next := by
  rw [next, next, h.size_eq]

theorem isLive (h : st.PartOf full) (hs : st.isLive s = true) : full.isLive s = true := by
  rw [Store.isLive, h.frame?_eq s hs]
  exact hs

theorem bindings_eq (h : st.PartOf full) (hs : st.isLive s = true) :
    full.bindings s = st.bindings s := by
  rw [bindings, bindings, h.frame?_eq s hs]

theorem binds_eq (h : st.PartOf full) (hs : st.isLive s = true) (n : Name) :
    full.binds s n = st.binds s n := by
  rw [binds, binds, h.bindings_eq hs]

theorem parent?_eq (h : st.PartOf full) (hs : st.isLive s = true) :
    full.parent? s = st.parent? s := by
  rw [parent?, parent?, h.frame?_eq s hs]

theorem depth_eq (h : st.PartOf full) (hs : st.isLive s = true) : full.depth s = st.depth s := by
  rw [depth, depth, h.frame?_eq s hs]

theorem policy_eq (h : st.PartOf full) (hs : st.isLive s = true) : full.policy s = st.policy s := by
  rw [policy, policy, h.frame?_eq s hs]

theorem creation_eq (h : st.PartOf full) (hs : st.isLive s = true) :
    full.creation s = st.creation s := by
  rw [creation, creation, h.frame?_eq s hs]

/-! ### Along a chain -/

theorem chain_eq (h : st.PartOf full) (hsound : st.Sound) (hfull : full.Sound)
    (hs : st.isLive s = true) : full.chain s = st.chain s := by
  induction s using hsound.chain_induction with
  | global s hp => rw [hfull.chain_eq, hsound.chain_eq, h.parent?_eq hs, hp]
  | inside s p hp ih =>
      rw [hfull.chain_eq, hsound.chain_eq, h.parent?_eq hs, hp]
      exact congrArg (s :: ·) (ih (hsound.isLive_parent? hp))

theorem root_eq (h : st.PartOf full) (hsound : st.Sound) (hfull : full.Sound)
    (hs : st.isLive s = true) : full.root s = st.root s := by
  induction s using hsound.chain_induction with
  | global s hp => rw [hfull.root_eq, hsound.root_eq, h.parent?_eq hs, hp]
  | inside s p hp ih =>
      rw [hfull.root_eq, hsound.root_eq, h.parent?_eq hs, hp]
      exact ih (hsound.isLive_parent? hp)

theorem binder?_eq (h : st.PartOf full) (hsound : st.Sound) (hfull : full.Sound)
    (hs : st.isLive s = true) (n : Name) : full.binder? s n = st.binder? s n := by
  induction s using hsound.chain_induction with
  | global s hp =>
      rw [hfull.binder?_eq, hsound.binder?_eq, h.binds_eq hs, h.parent?_eq hs, hp]
  | inside s p hp ih =>
      rw [hfull.binder?_eq, hsound.binder?_eq, h.binds_eq hs, h.parent?_eq hs, hp]
      simp only [ih (hsound.isLive_parent? hp)]

/-- What is read from the nearest binder. -/
theorem bind_binder?_eq {α : Type} (h : st.PartOf full) (hsound : st.Sound) (hfull : full.Sound)
    (hs : st.isLive s = true) (part : Binding → α) :
    ((full.binder? s n).bind fun b => ((full.bindings b).find? n).map part) =
      (st.binder? s n).bind fun b => ((st.bindings b).find? n).map part := by
  rw [h.binder?_eq hsound hfull hs]
  cases hb : st.binder? s n with
  | none => rfl
  | some b =>
      rw [Option.bind_some, Option.bind_some, h.bindings_eq (isLive_of_binds (binds_of_binder? hb))]

theorem lookup_eq (h : st.PartOf full) (hsound : st.Sound) (hfull : full.Sound)
    (hs : st.isLive s = true) (n : Name) : full.lookup s n = st.lookup s n := by
  rw [hfull.lookup_eq, hsound.lookup_eq, h.bind_binder?_eq hsound hfull hs]

theorem mutability?_eq (h : st.PartOf full) (hsound : st.Sound) (hfull : full.Sound)
    (hs : st.isLive s = true) (n : Name) : full.mutability? s n = st.mutability? s n := by
  rw [hfull.mutability?_eq, hsound.mutability?_eq, h.bind_binder?_eq hsound hfull hs]

theorem contains_eq (h : st.PartOf full) (hsound : st.Sound) (hfull : full.Sound)
    (hs : st.isLive s = true) (n : Name) : full.contains s n = st.contains s n := by
  rw [contains_eq_isSome_binder?, contains_eq_isSome_binder?, h.binder?_eq hsound hfull hs]

/-- What an assignment asks of the store. -/
theorem assignment_eq (h : st.PartOf full) (hsound : st.Sound) (hfull : full.Sound)
    (hs : st.isLive s = true) (n : Name) (v : Value) :
    full.assignment s n v = st.assignment s n v ∧
      (full.assign s n v).2 = (st.assign s n v).2 := by
  rw [assignment, assignment, hfull.assign_eq, hsound.assign_eq, h.binder?_eq hsound hfull hs,
    h.root_eq hsound hfull hs, h.policy_eq (hsound.isLive_root hs)]
  cases hb : st.binder? s n with
  | none =>
      refine ⟨rfl, ?_⟩
      dsimp only
      split <;> rfl
  | some b =>
      dsimp only
      rw [h.bindings_eq (isLive_of_binds (binds_of_binder? hb))]
      refine ⟨rfl, ?_⟩
      split <;> rfl

/-! ### Changes -/

theorem add (h : st.PartOf full) (f : Frame) : (st.add f).1.PartOf (full.add f).1 where
  size_eq := by
    rw [Store.add, Store.add, Array.size_push, Array.size_push, h.size_eq]
  frame?_eq s hs := by
    rw [frame?_add, frame?_add, h.next_eq]
    rw [Store.isLive, frame?_add] at hs
    split
    · rfl
    · rename_i hnext
      rw [if_neg hnext] at hs
      exact h.frame?_eq s hs

theorem rebind (h : st.PartOf full) (s : Scope) (change : Bindings → Bindings) :
    (st.rebind s change).PartOf (full.rebind s change) where
  size_eq := by
    rw [Store.rebind, Store.rebind, update, update, Array.size_modify, Array.size_modify, h.size_eq]
  frame?_eq t ht := by
    rw [isLive_rebind] at ht
    rw [frame?_rebind, frame?_rebind, h.frame?_eq t ht]

theorem apply (h : st.PartOf full) (c : Change) : (c.apply st).PartOf (c.apply full) := by
  cases c with
  | none => exact h
  | created f => exact h.add f
  | defined s n x => exact h.rebind s fun b => b.insert n x
  | assigned s n v => exact h.rebind s fun b => b.assign n v
  | emptied s => exact h.rebind s fun _ => .empty

end PartOf

end Store

namespace World

/-- The world has lost some scopes of the full one, none of them needed by what is left. -/
structure PartOf (w full : World) : Prop where
  sound : w.Sound
  sound_full : full.Sound
  store : w.store.PartOf full.store
  environments_eq : full.environments = w.environments

namespace PartOf

variable {w full : World} {a : Action} {place : Place} {e : EnvironmentId}

theorem environment?_eq (h : w.PartOf full) (e : EnvironmentId) :
    full.environment? e = w.environment? e := by
  rw [environment?, environment?, h.environments_eq]

theorem scopeAt?_eq (h : w.PartOf full)
    (hplace : w.store.Knows place.scope?) :
    full.scopeAt? place = w.scopeAt? place := by
  cases place with
  | scope s =>
      have hs := hplace s rfl
      rw [scopeAt?, scopeAt?, hs, h.store.isLive hs]
  | current e => rw [scopeAt?, scopeAt?, h.environment?_eq]
  | global e => rw [scopeAt?, scopeAt?, h.environment?_eq]

/-! ### The change, the move and the reports of an operation -/

theorem entry_eq (h : w.PartOf full)
    (hplace : w.store.Knows place.scope?) :
    full.entry e place = w.entry e place := by
  rw [entry, entry, h.environment?_eq, h.scopeAt?_eq hplace]
  split
  · rename_i hs
    rw [h.store.depth_eq (h.sound.isLive_scopeAt? hs), h.store.creation_eq (h.sound.isLive_scopeAt? hs)]
  · rfl

theorem ending_eq (h : w.PartOf full) (e : EnvironmentId) : full.ending e = w.ending e := by
  rw [ending, ending, h.environment?_eq]

theorem entrance_eq (h : w.PartOf full)
    (hplace : w.store.Knows place.scope?) :
    full.entrance e place = w.entrance e place := by
  rw [entrance, entrance, h.environment?_eq, h.scopeAt?_eq hplace]
  split
  · rename_i hs
    rw [h.store.depth_eq (h.sound.isLive_scopeAt? hs), h.store.next_eq]
  · rfl

theorem entryReports_eq (h : w.PartOf full)
    (hplace : w.store.Knows place.scope?) :
    full.entryReports e place = w.entryReports e place := by
  rw [entryReports, entryReports, h.environment?_eq, h.scopeAt?_eq hplace]
  split
  · rename_i hs
    rw [creationReport, creationReport, h.store.depth_eq (h.sound.isLive_scopeAt? hs)]
  · rfl

theorem endingReports_eq (h : w.PartOf full) (e : EnvironmentId) :
    full.endingReports e = w.endingReports e := by
  rw [endingReports, endingReports, h.environment?_eq]
  split
  · rename_i he
    rw [h.store.bindings_eq (h.sound.held he List.mem_cons_self)]
  · rfl

theorem change_eq (h : w.PartOf full) (ha : w.store.Knows a.scope?) :
    full.change a = w.change a := by
  cases a with
  | newChild place =>
      exact changeAt_congr (h.scopeAt?_eq ha) fun s hs => h.store.creation_eq (h.sound.isLive_scopeAt? hs)
  | define place n v m => exact changeAt_congr (h.scopeAt?_eq ha) fun _ _ => rfl
  | assign place n v =>
      refine changeAt_congr (h.scopeAt?_eq ha) fun s hs => ?_
      exact (h.store.assignment_eq h.sound.store h.sound_full.store (h.sound.isLive_scopeAt? hs) n v).1
  | enterBlock e | guardBlock e => exact h.entry_eq (.none _)
  | enterCall e captured | guardCall e captured => exact h.entry_eq ha
  | finish e | discard e => exact h.ending_eq e
  | _ => rfl

theorem move_eq (h : w.PartOf full) (ha : w.store.Knows a.scope?) :
    full.move a = w.move a := by
  cases a with
  | newEnvironment config => rw [move, move, h.store.next_eq]
  | enterBlock e | guardBlock e => exact h.entrance_eq (.none _)
  | enterCall e captured | guardCall e captured => exact h.entrance_eq ha
  | _ => rfl

theorem reportsAt_eq (h : w.PartOf full) {events events' : Scope → List Event}
    (hplace : w.store.Knows place.scope?)
    (hevents : ∀ s, w.store.isLive s = true → events' s = events s) :
    full.reportsAt place events' = w.reportsAt place events := by
  rw [reportsAt, reportsAt, h.scopeAt?_eq hplace]
  split
  · rename_i hs
    exact hevents _ (h.sound.isLive_scopeAt? hs)
  · rfl

theorem reports_eq (h : w.PartOf full) (ha : w.store.Knows a.scope?) :
    full.reports a = w.reports a := by
  cases a with
  | newChild place =>
      refine h.reportsAt_eq ha fun s hs => ?_
      rw [creationReport, creationReport, h.store.depth_eq hs]
  | define place n v m => exact h.reportsAt_eq ha fun _ _ => rfl
  | assign place n v =>
      refine h.reportsAt_eq ha fun s hs => ?_
      have hroot := h.sound.store.isLive_root hs
      rw [assignmentReports, assignmentReports, h.store.root_eq h.sound.store h.sound_full.store hs,
        h.store.binder?_eq h.sound.store h.sound_full.store hs, h.store.policy_eq hroot]
  | get place n =>
      refine h.reportsAt_eq ha fun s hs => ?_
      rw [h.store.lookup_eq h.sound.store h.sound_full.store hs]
  | enterBlock e | guardBlock e => exact h.entryReports_eq (.none _)
  | enterCall e captured | guardCall e captured => exact h.entryReports_eq ha
  | finish e | discard e => exact h.endingReports_eq e
  | _ => rfl

/-! ### Answers -/

theorem answer_performEntry_eq (h : w.PartOf full) (e : EnvironmentId) (parent : Place)
    (hparent : w.store.Knows parent.scope?)
    (answer : Environment → Result) :
    (full.performEntry e parent answer).2 = (w.performEntry e parent answer).2 := by
  have henv := h.environment?_eq e
  have hscope := h.scopeAt?_eq hparent
  cases he : w.environment? e with
  | none =>
      rw [he] at henv
      rw [performEntry_of_absent (.inl he), performEntry_of_absent (.inl henv)]
  | some env =>
      cases hs : w.scopeAt? parent with
      | none =>
          rw [hs] at hscope
          rw [performEntry_of_absent (.inr hs), performEntry_of_absent (.inr hscope)]
      | some s =>
          rw [he] at henv
          rw [hs] at hscope
          rw [performEntry_eq he hs, performEntry_eq henv hscope,
            h.store.depth_eq (h.sound.isLive_scopeAt? hs)]
          split <;> rfl

theorem released_eq (h : w.PartOf full) (e : EnvironmentId) :
    (full.endRun e).2 = (w.endRun e).2 := by
  unfold endRun
  rw [h.environment?_eq]
  cases he : w.environment? e with
  | none => rfl
  | some env =>
      dsimp only
      rw [h.store.bindings_eq (h.sound.held he List.mem_cons_self)]
      split <;> rfl

/-- An operation answers as it would if no scope had been lost. -/
theorem answer_eq (h : w.PartOf full) (ha : w.store.Knows a.scope?) :
    (full.perform a).2 = (w.perform a).2 := by
  cases a with
  | newScope => exact congrArg Result.scope h.store.next_eq
  | newGlobal policy => exact congrArg Result.scope h.store.next_eq
  | newChild place =>
      refine answer_performAt_congr (h.scopeAt?_eq ha) fun s _ => ?_
      dsimp only
      rw [newScope_snd, newScope_snd, h.store.next_eq]
  | define place n v m => exact answer_performAt_congr (h.scopeAt?_eq ha) fun _ _ => rfl
  | assign place n v =>
      refine answer_assign_congr (h.scopeAt?_eq ha) fun s hs => ?_
      exact (h.store.assignment_eq h.sound.store h.sound_full.store (h.sound.isLive_scopeAt? hs) n v).2
  | get place n =>
      refine answer_get_congr (h.scopeAt?_eq ha) fun s hs => ?_
      exact h.store.lookup_eq h.sound.store h.sound_full.store (h.sound.isLive_scopeAt? hs) n
  | lookup place n =>
      refine answer_performAt_congr (h.scopeAt?_eq ha) fun s hs => congrArg Result.found ?_
      exact h.store.lookup_eq h.sound.store h.sound_full.store (h.sound.isLive_scopeAt? hs) n
  | contains place n =>
      refine answer_performAt_congr (h.scopeAt?_eq ha) fun s hs => congrArg Result.flag ?_
      exact h.store.contains_eq h.sound.store h.sound_full.store (h.sound.isLive_scopeAt? hs) n
  | binds place n =>
      refine answer_performAt_congr (h.scopeAt?_eq ha) fun s hs => congrArg Result.flag ?_
      exact h.store.binds_eq (h.sound.isLive_scopeAt? hs) n
  | mutability place n =>
      refine answer_performAt_congr (h.scopeAt?_eq ha) fun s hs => congrArg Result.mutability ?_
      exact h.store.mutability?_eq h.sound.store h.sound_full.store (h.sound.isLive_scopeAt? hs) n
  | newEnvironment config =>
      change Result.environment ⟨full.environments.size⟩ = .environment ⟨w.environments.size⟩
      rw [h.environments_eq]
  | enterBlock e | guardBlock e => exact h.answer_performEntry_eq e _ (.none _) _
  | enterCall e captured | guardCall e captured =>
      exact h.answer_performEntry_eq e (.scope captured) ha _
  | leave e =>
      simp only [World.perform, h.environment?_eq]
      split <;> rfl
  | restore g => rfl
  | capture e => exact answer_performAt_congr (h.scopeAt?_eq (.none _)) fun _ _ => rfl
  | closure e name params body =>
      simp only [World.perform, h.environment?_eq]
      split <;> rfl
  | finish e =>
      simp only [World.perform, h.environment?_eq]
      split
      · rfl
      · exact congrArg Result.released (h.released_eq e)
  | discard e => rfl

/-- After an operation the world is still a part of what the full one has become. -/
theorem perform (h : w.PartOf full) (ha : w.store.Knows a.scope?) :
    (w.perform a).1.PartOf (full.perform a).1 where
  sound := h.sound.perform a
  sound_full := h.sound_full.perform a
  store := by
    rw [h.sound.store_perform, h.sound_full.store_perform, h.change_eq ha]
    exact h.store.apply (w.change a)
  environments_eq := by
    rw [environments_perform, environments_perform, h.move_eq ha, h.environments_eq]

end PartOf

end World

end ScopeChain
