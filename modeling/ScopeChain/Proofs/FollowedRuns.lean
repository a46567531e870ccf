import ScopeChain.Proofs.CarriedValues
import ScopeChain.Proofs.ReclaimedStore
import ScopeChain.Session.Run
import Std.Data.TreeMap.Lemmas

/-!
Sessions beside runs.  The world of a session loses scopes when handles are dropped; beside it
stands the world that the same operations reach when nothing is reclaimed.  The session follows that
run as long as its world is a part of the other one in which all that the session holds is there,
and each operation and each drop of a handle keeps it so.
-/

namespace ScopeChain

open Script

/-- The event of an entry. -/
def Script.Entry.event? : Entry → Option Event
  | .event e => some e
  | .answer _ => none

/-- The configuration of the environment that an operation begins. -/
def Action.config? : Action → Option Config
  | .newEnvironment config => some config
  | _ => none

namespace Session

variable {s : Session} {full : World} {p p' : Payloads} {a : Action} {r : Result} {v : Value}
  {sc : Scope}

theorem mem_values_iff {α : Type} {registers : Std.TreeMap String α} {x : α} :
    x ∈ registers.values ↔ ∃ name : String, registers[name]? = some x := by
  have hvalues : registers.values = registers.toList.map Prod.snd := by
    change registers.foldr (fun _ v vs => v :: vs) [] = _
    rw [Std.TreeMap.foldr_eq_foldr_toList]
    induction registers.toList with
    | nil => rfl
    | cons e rest ih => rw [List.foldr_cons, ih, List.map_cons]
  simp [hvalues, List.mem_map, Std.TreeMap.mem_toList_iff_getElem?_eq_some]

theorem ok_of_bind {α β : Type} {x : Except Fault α} {f : α → Except Fault β} {b : β}
    (h : (x >>= f) = .ok b) : ∃ a, x = .ok a ∧ f a = .ok b := by
  cases x with
  | error e => cases h
  | ok a => exact ⟨a, rfl, h⟩

theorem ok_of_map {α β : Type} {x : Except Fault α} {f : α → β} {b : β}
    (h : x.map f = .ok b) : ∃ a, x = .ok a ∧ f a = b := by
  cases x with
  | error e => cases h
  | ok a => exact ⟨a, rfl, Except.ok.inj h⟩

theorem toList_foldl_push (log : List Event) (transcript : Array Entry) :
    (log.foldl (fun t e => t.push (.event e)) transcript).toList =
      transcript.toList ++ log.map .event := by
  induction log generalizing transcript with
  | nil => simp
  | cons e rest ih =>
      rw [List.foldl_cons, ih, Array.toList_push, List.map_cons, List.append_assoc]
      rfl

/-- The events in the transcript. -/
def events (s : Session) : List Event :=
  s.transcript.toList.filterMap Entry.event?

/-- The handles that the session and its environment hold. -/
def held (s : Session) : List Held :=
  s.values.values.map Value.held ++ s.heldScopes.map Held.scope

/-- The world of the session is what reclaiming left of the full one, which some run reaches: all
that the session holds is in it, and the two have reported the same.  Only the environment of the
session is there. -/
structure Follows (s : Session) (full : World) (p : Payloads) : Prop where
  run : ∃ actions, full = (World.empty.performAll actions).1
  part : s.world.PartOf full
  log : s.events ++ s.world.log.toList = full.log.toList
  count : p.count = s.allocations
  consistent : p.Consistent
  closed : s.world.store.Closed p
  scopes : ∀ (r : String) (sc : Scope), s.scopes[r]? = some sc → s.world.store.isLive sc = true
  values : ∀ (r : String) (v : Value), s.values[r]? = some v → s.world.store.Carries p v
  only : ∀ {e : EnvironmentId} {env : Environment}, s.world.environment? e = some env →
    s.environment = some e

namespace Follows

theorem empty : Session.empty.Follows .empty ⟨0, fun _ => []⟩ where
  run := ⟨[], rfl⟩
  part := ⟨World.sound_empty, World.sound_empty, .refl _, rfl⟩
  log := rfl
  count := rfl
  consistent _ _ hv := by cases hv
  closed := { isLive_parent := nofun, carries := nofun }
  scopes r sc hsc := by simp [Session.empty] at hsc
  values r v hv := by simp [Session.empty] at hv
  only he := by cases he

/-! ### The transcript and the registers -/

theorem flush (h : s.Follows full p) : s.flush.Follows full p := by
  obtain ⟨⟨store, environments, log⟩, environment, guards, scopes, values, allocations,
    transcript⟩ := s
  refine ⟨h.run, ⟨⟨h.part.sound.store, h.part.sound.held⟩, h.part.sound_full, h.part.store,
    h.part.environments_eq⟩, ?_, h.count, h.consistent, h.closed, h.scopes, h.values, h.only⟩
  have hevents := h.log
  simp only [Session.flush, events] at hevents ⊢
  rw [← Array.foldl_toList, toList_foldl_push, List.filterMap_append, List.filterMap_map, ← hevents]
  simp [Function.comp_def, Entry.event?]

theorem reply (h : s.Follows full p) (answer : Answer) : (s.reply answer).Follows full p where
  run := h.run
  part := h.flush.part
  log := by
    rw [← h.flush.log]
    simp [Session.reply, events, Entry.event?]
  count := h.count
  consistent := h.consistent
  closed := h.closed
  scopes := h.scopes
  values := h.values
  only := h.only

theorem guarded (h : s.Follows full p) (guards : Nat) :
    ({ s with guards := guards }).Follows full p :=
  ⟨h.run, h.part, h.log, h.count, h.consistent, h.closed, h.scopes, h.values, h.only⟩

/-- Other registers, with scopes and values that are there as well. -/
theorem registers (h : s.Follows full p) {scopes : Std.TreeMap String Scope}
    {values : Std.TreeMap String Value}
    (hscopes : ∀ (r : String) (sc : Scope), scopes[r]? = some sc → s.world.store.isLive sc = true)
    (hvalues : ∀ (r : String) (v : Value), values[r]? = some v → s.world.store.Carries p v) :
    ({ s with scopes := scopes, values := values }).Follows full p :=
  ⟨h.run, h.part, h.log, h.count, h.consistent, h.closed, hscopes, hvalues, h.only⟩

theorem setScope (h : s.Follows full p) (hsc : s.world.store.isLive sc = true)
    (dest : Option String) : (s.setScope dest sc).Follows full p := by
  cases dest with
  | none => exact h
  | some name =>
      refine h.registers (fun r t ht => ?_) h.values
      rw [Std.TreeMap.getElem?_insert] at ht
      split at ht
      · exact Option.some.inj ht ▸ hsc
      · exact h.scopes r t ht

theorem setValue (h : s.Follows full p) (hv : s.world.store.Carries p v) (dest : Option String) :
    (s.setValue dest v).Follows full p := by
  cases dest with
  | none => exact h
  | some name =>
      refine h.registers h.scopes fun r w hw => ?_
      rw [Std.TreeMap.getElem?_insert] at hw
      split at hw
      · exact Option.some.inj hw ▸ hv
      · exact h.values r w hw

theorem keepScope (h : s.Follows full p) (hsc : s.world.store.isLive sc = true)
    (dest : Option String) : (s.keepScope dest sc).Follows full p :=
  (h.setScope hsc dest).reply _

theorem keepValue (h : s.Follows full p) (hv : s.world.store.Carries p v) (dest : Option String) :
    (s.keepValue dest v).Follows full p :=
  (h.setValue hv dest).reply _

theorem dropScope (h : s.Follows full p) (name : String) :
    ({ s with scopes := s.scopes.erase name }).Follows full p := by
  refine h.registers (fun r t ht => ?_) h.values
  rw [Std.TreeMap.getElem?_erase] at ht
  split at ht
  · cases ht
  · exact h.scopes r t ht

theorem dropValue (h : s.Follows full p) (name : String) :
    ({ s with values := s.values.erase name }).Follows full p := by
  refine h.registers h.scopes fun r v hv => ?_
  rw [Std.TreeMap.getElem?_erase] at hv
  split at hv
  · cases hv
  · exact h.values r v hv

/-- Payloads made now are held by nothing else. -/
theorem allocate (h : s.Follows full p) (hp : p.Extends p') (hconsistent : p'.Consistent) :
    ({ s with allocations := p'.count }).Follows full p' where
  run := h.run
  part := h.part
  log := h.log
  count := rfl
  consistent := hconsistent
  closed := h.closed.mono hp
  scopes := h.scopes
  values r v hv := (h.values r v hv).mono (fun _ hs => hs) hp
  only := h.only

/-! ### Operations -/

/-- An operation on what the session holds keeps the session beside the run, which goes on with the
same operation. -/
theorem performing (h : s.Follows full p)
    (ha : s.world.store.Provides p a.scope? a.value?) {environment : Option EnvironmentId}
    (honly : ∀ {e env}, (s.world.perform a).1.environment? e = some env → environment = some e) :
    ({ s with world := (s.world.perform a).1, environment := environment }).Follows
      (full.perform a).1 p where
  run := by
    obtain ⟨actions, rfl⟩ := h.run
    exact ⟨actions ++ [a], (World.performAll_append _ actions [a]).symm⟩
  part := h.part.perform ha.scope
  log := by
    have hlog : (s.world.perform a).1.log.toList = s.world.log.toList ++ s.world.reports a :=
      h.part.sound.logs_perform a
    have hfull : (full.perform a).1.log.toList = full.log.toList ++ full.reports a :=
      h.part.sound_full.logs_perform a
    rw [hfull, ← h.log, h.part.reports_eq ha.scope, List.append_assoc, ← hlog]
    rfl
  count := h.count
  consistent := h.consistent
  closed := h.part.sound.closed_perform h.closed ha.value
  scopes r sc hsc := (h.part.sound.grows_perform a).isLive (h.scopes r sc hsc)
  values r v hv :=
    (h.values r v hv).mono (fun _ hs => (h.part.sound.grows_perform a).isLive hs) (.refl p)
  only := honly

theorem act_eq (s : Session) (a : Action) :
    s.act a = ({ s with world := (s.world.perform a).1 }, (s.world.perform a).2) := rfl

theorem act (h : s.Follows full p) (hconfig : a.config? = none)
    (ha : s.world.store.Provides p a.scope? a.value?) :
    (s.act a).1.Follows (full.perform a).1 p := by
  have honly : ∀ {e env}, (s.world.perform a).1.environment? e = some env →
      s.environment = some e := by
    intro e env he
    obtain ⟨before, hbefore, -⟩ | ⟨config, rfl, -⟩ := World.environment_cases he
    · exact h.only hbefore
    · cases hconfig
  exact h.performing ha honly

theorem conclude (h : s.Follows full p) (hr : s.world.store.Provides p r.scope? r.value?)
    (dest : Option String) : (s.conclude dest r).Follows full p := by
  cases r with
  | scope sc => exact h.keepScope (hr.scope _ rfl) dest
  | left left =>
      cases left with
      | none => exact h.reply _
      | some sc => exact (h.setScope (hr.scope _ rfl) dest).reply _
  | value v => exact h.keepValue (hr.value _ rfl) dest
  | found found =>
      cases found with
      | none => exact h.reply _
      | some v => exact h.keepValue (hr.value _ rfl) dest
  | _ => exact h.reply _

theorem operate (h : s.Follows full p) (hconfig : a.config? = none)
    (ha : s.world.store.Provides p a.scope? a.value?) (dest : Option String) :
    (s.operate a dest).Follows (full.perform a).1 p :=
  (h.act hconfig ha).conclude (h.part.sound.provides_perform h.closed a) dest

/-- The session answers what the operation gives in the world where nothing is reclaimed. -/
theorem operate_eq (h : s.Follows full p) (ha : s.world.store.Knows a.scope?)
    (dest : Option String) :
    s.operate a dest =
      ({ s with world := (s.world.perform a).1 }).conclude dest (full.perform a).2 := by
  rw [h.part.answer_eq ha]
  rfl

/-! ### The environment -/

/-- The operation that ends the environment of the session leaves none. -/
theorem ended (h : s.Follows full p) {e : EnvironmentId} (he : s.environment = some e)
    (hmove : s.world.move a = .ended e) (hscope : a.scope? = none) (hvalue : a.value? = none) :
    ({ (s.act a).1 with environment := none }).Follows (full.perform a).1 p := by
  have hnone : ∀ {e' env}, (s.world.perform a).1.environment? e' = some env →
      (none : Option EnvironmentId) = some e' := by
    intro e' env he'
    obtain ⟨before, hbefore, -⟩ | ⟨config, rfl, -⟩ := World.environment_cases he'
    · obtain rfl := Option.some.inj (he.symm.trans (h.only hbefore))
      rw [World.environment?_perform hbefore, hmove, Move.become, if_pos rfl] at he'
      cases he'
    · cases hmove
  refine h.performing ?_ hnone
  rw [hscope, hvalue]
  exact Store.provides_none

theorem discardEnvironment (h : s.Follows full p) :
    ∃ full', s.discardEnvironment.Follows full' p ∧ s.discardEnvironment.environment = none := by
  unfold Session.discardEnvironment
  cases he : s.environment with
  | none => exact ⟨full, h, he⟩
  | some e => exact ⟨_, h.ended he rfl rfl rfl, rfl⟩

theorem beginEnvironment (h : s.Follows full p) (hnone : s.environment = none) (config : Config) :
    (s.beginEnvironment config).Follows (full.perform (.newEnvironment config)).1 p := by
  have honly : ∀ {e env}, (s.world.perform (.newEnvironment config)).1.environment? e = some env →
      some ⟨s.world.environments.size⟩ = some e := by
    intro e env he
    obtain ⟨before, hbefore, -⟩ | ⟨_, -, hindex, -⟩ := World.environment_cases he
    · cases hnone.symm.trans (h.only hbefore)
    · rw [← hindex]
  exact h.performing Store.provides_none honly

/-! ### What the session names -/

theorem isLive_environment (h : s.Follows full p) {env : Environment}
    (henv : s.requireEnvironment = .ok env) (hsc : sc ∈ env.held) :
    s.world.store.isLive sc = true := by
  unfold Session.requireEnvironment at henv
  split at henv
  · rename_i hsome
    obtain rfl := Except.ok.inj henv
    obtain ⟨e, -, he⟩ := Option.bind_eq_some_iff.mp hsome
    exact h.part.sound.held he hsc
  · cases henv

theorem isLive_heldScopes (h : s.Follows full p) (hsc : sc ∈ s.heldScopes) :
    s.world.store.isLive sc = true := by
  rcases List.mem_append.mp hsc with hsc | hsc
  · obtain ⟨r, hr⟩ := mem_values_iff.mp hsc
    exact h.scopes r sc hr
  · cases henv : s.requireEnvironment with
    | error f =>
        rw [henv] at hsc
        cases hsc
    | ok env =>
        rw [henv] at hsc
        exact h.isLive_environment henv hsc

theorem isLive_ofEnvironment (h : s.Follows full p) {part : Environment → Scope}
    (hpart : ∀ env : Environment, part env ∈ env.held)
    (hsc : s.requireEnvironment.map part = .ok sc) : s.world.store.isLive sc = true := by
  obtain ⟨env, henv, rfl⟩ := ok_of_map hsc
  exact h.isLive_environment henv (hpart env)

theorem isLive_scope (h : s.Follows full p) {ref : ScopeRef} (hsc : s.scope ref = .ok sc) :
    s.world.store.isLive sc = true := by
  cases ref with
  | global => exact h.isLive_ofEnvironment (fun _ => List.mem_cons_self) hsc
  | current => exact h.isLive_ofEnvironment World.current_mem_held hsc
  | captured name =>
      rw [Session.scope] at hsc
      split at hsc
      · rename_i f hf
        obtain rfl := Except.ok.inj hsc
        obtain ⟨v, hv, hclosure⟩ := Option.bind_eq_some_iff.mp hf
        cases h.values name v hv with
        | plain nothing =>
            cases v with
            | function => cases nothing
            | _ => cases hclosure
        | function captured => exact Option.some.inj hclosure ▸ captured
        | list => cases hclosure
      · cases hsc
  | register name =>
      rw [Session.scope] at hsc
      split at hsc
      · rename_i hr
        exact Except.ok.inj hsc ▸ h.scopes name _ hr
      · cases hsc

/-! ### Dropping handles -/

/-- The census that a drop of handles takes is right: these handles are dropped, and those that the
session holds stay outside. -/
theorem counted (h : s.Follows full p) {scopes : List Scope} {values : List Value}
    (hscopes : ∀ sc ∈ scopes, s.world.store.isLive sc = true)
    (hvalues : ∀ v ∈ values, s.world.store.Carries p v) :
    s.world.store.Counted
      (.ofStore s.world.store s.allocations (scopes ++ s.heldScopes) (values ++ s.values.values))
      p.items (values.map Value.held ++ scopes.map Held.scope ++ s.held) := by
  have hvalues' : ∀ v ∈ values ++ s.values.values, s.world.store.Carries p v := by
    intro v hv
    rcases List.mem_append.mp hv with hv | hv
    · exact hvalues v hv
    · obtain ⟨r, hr⟩ := mem_values_iff.mp hv
      exact h.values r v hr
  have hscopes' : ∀ sc ∈ scopes ++ s.heldScopes, s.world.store.isLive sc = true := by
    intro sc hsc
    rcases List.mem_append.mp hsc with hsc | hsc
    · exact hscopes sc hsc
    · exact h.isLive_heldScopes hsc
  have hcounted := h.closed.counted h.consistent hvalues' hscopes'
  rw [h.count] at hcounted
  refine hcounted.perm ?_
  simp only [List.map_append, held, List.append_assoc]
  exact (List.perm_append_comm_assoc _ _ _).append_left _

/-- Dropping handles takes nothing from the session that it still needs. -/
theorem dropHandles (h : s.Follows full p) {scopes : List Scope} {values : List Value}
    (hscopes : ∀ sc ∈ scopes, s.world.store.isLive sc = true)
    (hvalues : ∀ v ∈ values, s.world.store.Carries p v) :
    (s.dropHandles scopes values).Follows full p := by
  obtain ⟨hpart, hcounted⟩ := (h.counted hscopes hvalues).reclaim
  have hclosed := hpart.closed h.closed hcounted
  have hheld : ∀ sc ∈ s.heldScopes, (s.dropHandles scopes values).world.store.isLive sc = true := by
    intro sc hsc
    refine hcounted.isLive_of_held (List.mem_append_left _ (List.mem_append_right _ ?_))
    exact List.mem_map_of_mem hsc
  refine ⟨h.run, ⟨⟨hpart.sound h.part.sound.store hclosed, fun {e env sc} he hsc => ?_⟩,
    h.part.sound_full, hpart.trans h.part.store, h.part.environments_eq⟩, h.log, h.count,
    h.consistent, hclosed, fun r sc hsc => ?_, fun r v hv => ?_, h.only⟩
  · have henv : s.requireEnvironment = .ok env := by
      rw [Session.requireEnvironment, h.only he, Option.bind_some]
      change s.world.environment? e = some env at he
      rw [he]
    refine hheld sc (List.mem_append_right _ ?_)
    rw [henv]
    exact hsc
  · exact hheld sc (List.mem_append_left _ (mem_values_iff.mpr ⟨r, hsc⟩))
  · refine hcounted.carries (h.values r v hv) (List.mem_append_left _ (List.mem_append_left _ ?_))
    exact List.mem_map_of_mem (mem_values_iff.mpr ⟨r, hv⟩)

end Follows

end Session

end ScopeChain
