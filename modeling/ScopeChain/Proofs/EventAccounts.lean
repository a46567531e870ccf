import ScopeChain.Proofs.Assignment
import ScopeChain.Proofs.Moments
import ScopeChain.Proofs.NameIndependence
import ScopeChain.Proofs.Reports
import ScopeChain.Proofs.RunEnding

/-!
Events account for effects.  Each operation makes one change and reports it by at most one event, or
by two when an environment begins.  So the log of a run can be balanced against the world that the run
reaches: against its scopes, its bindings and its environments.
-/

namespace ScopeChain

namespace Event

/-- Whether the event tells of a new scope. -/
def isCreation : Event → Bool
  | .scopeCreated _ | .globalCreated _ => true
  | _ => false

/-- Whether the event tells of the beginning of an environment. -/
def isBeginning : Event → Bool
  | .environmentCreated _ _ => true
  | _ => false

/-- The event tells of a new scope with this frame: of its depth or, if it is a global scope, of its
policy. -/
def TellsOf (f : Frame) : Event → Prop
  | .scopeCreated depth => depth = f.depth
  | .globalCreated policy => f.parent = none ∧ policy = f.policy
  | _ => False

theorem TellsOf.congr {f g : Frame} {event : Event} (h : event.TellsOf f)
    (hparent : g.parent = f.parent) (hdepth : g.depth = f.depth) (hpolicy : g.policy = f.policy) :
    event.TellsOf g := by
  cases event with
  | scopeCreated depth => exact h.trans hdepth.symm
  | globalCreated policy => exact ⟨hparent.trans h.1, h.2.trans hpolicy.symm⟩
  | _ => exact h

theorem TellsOf.isCreation {f : Frame} {event : Event} (h : event.TellsOf f) :
    event.isCreation = true := by
  cases event with
  | scopeCreated _ | globalCreated _ => rfl
  | _ => exact h.elim

theorem TellsOf.isCreation_of_mem {f : Frame} {event other : Event} (h : event.TellsOf f)
    (hmem : other ∈ [event]) : other.isCreation = true :=
  List.mem_singleton.mp hmem ▸ h.isCreation

/-- Each beginning of an environment in the list comes right after its global scope. -/
def Introduced (events : List Event) : Prop :=
  ∀ before policy limit after, events = before ++ .environmentCreated policy limit :: after →
    before.getLast? = some (.globalCreated policy)

theorem introduced_of_not_mem {events : List Event}
    (h : ∀ policy limit, .environmentCreated policy limit ∉ events) : Introduced events := by
  rintro before policy limit after rfl
  exact absurd (List.mem_append_right before List.mem_cons_self) (h policy limit)

theorem Introduced.append {first later : List Event} (hfirst : Introduced first)
    (hlater : Introduced later) : Introduced (first ++ later) := by
  intro before policy limit after hsplit
  obtain ⟨middle, rfl, hmiddle⟩ | ⟨middle, rfl, hmiddle⟩ := List.append_eq_append_iff.mp hsplit
  · rw [List.getLast?_append, hlater middle policy limit after hmiddle]
    rfl
  · cases middle with
    | nil => cases hlater [] policy limit after hmiddle.symm
    | cons event middle =>
        obtain ⟨rfl, -⟩ := List.cons.inj hmiddle
        exact hfirst before policy limit middle rfl

end Event

/-- The events that report a failure.  A rejected assignment to an immutable binding is not
reported. -/
def Error.reports : Error → List Event
  | .undefined n => [.undefinedRead n]
  | .undeclared n => [.assignmentRejected n]
  | .immutable _ => []
  | .tooDeep limit => [.depthLimitReached limit]

/-- Whether the operation reports nothing, whatever it finds. -/
def Action.isSilent : Action → Bool
  | .lookup _ _ | .contains _ _ | .binds _ _ | .mutability _ _ => true
  | .leave _ | .restore _ | .capture _ | .closure _ _ _ _ => true
  | _ => false

namespace World

variable {w : World} {a : Action}

/-! ### The change of an operation and its events -/

/-- What an operation changes, together with the events that it reports. -/
inductive ReportedChange (w : World) (a : Action) : Change → List Event → Prop where
  | nothing : ReportedChange w a .none []
  | assigned {s n v} : ReportedChange w a (.assigned s n v) []
  | scope {f event} : event.TellsOf f → ReportedChange w a (.created f) [event]
  | environment {config} : a = .newEnvironment config →
      ReportedChange w a (.created (.global config.policy))
        [.globalCreated config.policy, .environmentCreated config.policy config.maxDepth]
  | defined {place s n v m} : a = .define place n v m →
      ReportedChange w a (.defined s n ⟨v, m⟩) [.defined n m]
  | createdGlobal {place t n v} : a = .assign place n v → w.scopeAt? place = some t →
      w.store.binder? t n = none →
      ReportedChange w a (.defined (w.store.root t) n ⟨v, .mutable⟩) [.assignmentCreatedGlobal n]
  | rejected {n} : ReportedChange w a .none [.assignmentRejected n]
  | undefined {n} : ReportedChange w a .none [.undefinedRead n]
  | refused {limit} : ReportedChange w a .none [.depthLimitReached limit]
  | ended {e env} : a = .finish e ∨ a = .discard e → w.environment? e = some env →
      ReportedChange w a (.emptied env.global)
        [.environmentTornDown (w.store.bindings env.global).size]

theorem reportedChange_at {place : Place} {change : Scope → Change} {events : Scope → List Event}
    (h : ∀ s, w.scopeAt? place = some s → w.ReportedChange a (change s) (events s)) :
    w.ReportedChange a (w.changeAt place change) (w.reportsAt place events) := by
  unfold changeAt reportsAt
  cases hs : w.scopeAt? place with
  | none => exact .nothing
  | some s => exact h s hs

theorem reportedChange_creation {s : Scope} (hs : w.store.isLive s = true) :
    w.ReportedChange a (w.store.creation s) [w.creationReport s] := by
  obtain ⟨f, hf⟩ := Store.isLive_iff.mp hs
  simp only [Store.creation, creationReport, Store.depth, hf]
  exact .scope rfl

namespace Sound

theorem reportedChange_entry (h : w.Sound) (e : EnvironmentId) (place : Place) :
    w.ReportedChange a (w.entry e place) (w.entryReports e place) := by
  unfold entry entryReports
  cases w.environment? e with
  | none => exact .nothing
  | some env =>
      cases hs : w.scopeAt? place with
      | none => exact .nothing
      | some s =>
          dsimp only
          cases env.config.exceeded? (w.store.depth s) with
          | some limit => exact .refused
          | none => exact reportedChange_creation (h.isLive_scopeAt? hs)

theorem reportedChange_assignment {place : Place} {n : Name} {v : Value}
    (ha : a = .assign place n v) {t : Scope} (ht : w.scopeAt? place = some t) :
    w.ReportedChange a (w.store.assignment t n v) (w.assignmentReports n t) := by
  unfold Store.assignment assignmentReports
  cases hb : w.store.binder? t n with
  | some b =>
      dsimp only
      split
      · exact .assigned
      · exact .nothing
  | none =>
      dsimp only
      split
      · exact .createdGlobal ha ht hb
      · exact .rejected

theorem reportedChange_ending {e : EnvironmentId} (ha : a = .finish e ∨ a = .discard e) :
    w.ReportedChange a (w.ending e) (w.endingReports e) := by
  unfold ending endingReports
  cases he : w.environment? e with
  | none => exact .nothing
  | some env =>
      dsimp only
      split
      · exact .nothing
      · exact .ended ha he

/-- The change of every operation is reported as told. -/
theorem reportedChange (h : w.Sound) (a : Action) :
    w.ReportedChange a (w.change a) (w.reports a) := by
  cases a with
  | newScope => exact .scope rfl
  | newGlobal policy => exact .scope ⟨rfl, rfl⟩
  | newChild parent =>
      exact reportedChange_at fun s hs => reportedChange_creation (h.isLive_scopeAt? hs)
  | define place n v m => exact reportedChange_at fun s _ => .defined rfl
  | assign place n v => exact reportedChange_at fun t ht => reportedChange_assignment rfl ht
  | get place n =>
      simp only [change, reports, reportsAt]
      split
      · split
        · exact .undefined
        · exact .nothing
      · exact .nothing
  | newEnvironment config => exact .environment rfl
  | enterBlock e => exact h.reportedChange_entry e _
  | enterCall e captured => exact h.reportedChange_entry e _
  | guardBlock e => exact h.reportedChange_entry e _
  | guardCall e captured => exact h.reportedChange_entry e _
  | finish e => exact reportedChange_ending (.inl rfl)
  | discard e => exact reportedChange_ending (.inr rfl)
  | _ => exact .nothing

end Sound

theorem ReportedChange.exists_newEnvironment {c : Change} {events : List Event}
    (h : w.ReportedChange a c events) {policy : Policy} {limit : Option UInt64}
    (hmem : .environmentCreated policy limit ∈ events) : ∃ config, a = .newEnvironment config := by
  cases h with
  | environment ha => exact ⟨_, ha⟩
  | scope htells => cases htells.isCreation_of_mem hmem
  | _ => simp at hmem

theorem ReportedChange.exists_environment {c : Change} {events : List Event}
    (h : w.ReportedChange a c events) {released : Nat}
    (hmem : .environmentTornDown released ∈ events) :
    ∃ e env, (a = .finish e ∨ a = .discard e) ∧ w.environment? e = some env := by
  cases h with
  | ended ha he => exact ⟨_, _, ha, he⟩
  | scope htells => cases htells.isCreation_of_mem hmem
  | _ => simp at hmem

/-- An operation that creates a scope tells of it once, and no other tells of a new scope. -/
theorem ReportedChange.creations {c : Change} {events : List Event}
    (h : w.ReportedChange a c events) :
    (events.filter Event.isCreation = [] ∧ ∀ f, c ≠ .created f) ∨
      ∃ f event, c = .created f ∧ events.filter Event.isCreation = [event] ∧ event.TellsOf f := by
  cases h with
  | scope htells =>
      exact .inr ⟨_, _, rfl, List.filter_cons_of_pos htells.isCreation, htells⟩
  | environment => exact .inr ⟨_, _, rfl, rfl, rfl, rfl⟩
  | _ => exact .inl ⟨rfl, by rintro _ ⟨⟩⟩

theorem ReportedChange.introduced {c : Change} {events : List Event}
    (h : w.ReportedChange a c events) : Event.Introduced events := by
  cases h with
  | environment =>
      intro before policy limit after hsplit
      rcases before with _ | ⟨event, _ | ⟨_, before⟩⟩
      · cases hsplit
      · cases hsplit
        rfl
      · simp at hsplit
  | scope htells =>
      refine Event.introduced_of_not_mem fun policy limit hmem => ?_
      cases htells.isCreation_of_mem hmem
  | _ => exact Event.introduced_of_not_mem (by simp)

/-! ### New bindings -/

/-- The operation makes the scope bind a name that it did not bind. -/
def Gains (w : World) (a : Action) (s : Scope) (n : Name) : Prop :=
  w.store.binds s n = false ∧ (w.perform a).1.store.binds s n = true

theorem Sound.gains_iff (h : w.Sound) {s : Scope} {n : Name} :
    w.Gains a s n ↔ w.store.binds s n = false ∧ (w.change a).name? s = some n := by
  refine and_congr_right fun hfree => ?_
  rw [h.binds_perform]
  simp [hfree]

theorem name?_defined {s t : Scope} {n m : Name} {x : Binding} :
    (Change.defined t m x).name? s = some n ↔ s = t ∧ n = m := by
  rw [Change.name?]
  split
  · rename_i hts
    simp [hts, eq_comm]
  · rename_i hts
    simp [Ne.symm hts]

/-- A new binding is reported once, and it is the only one that the operation makes. -/
theorem Sound.reports_of_gains (h : w.Sound) {s : Scope} {n : Name} (hgains : w.Gains a s n) :
    (∀ s' n', w.Gains a s' n' → s' = s ∧ n' = n) ∧
      ((∃ place v m, a = .define place n v m ∧ w.reports a = [.defined n m]) ∨
        ∃ place v, a = .assign place n v ∧ w.reports a = [.assignmentCreatedGlobal n]) := by
  simp only [h.gains_iff] at hgains ⊢
  have hreported := h.reportedChange a
  generalize w.change a = c at hgains hreported ⊢
  generalize w.reports a = events at hreported ⊢
  obtain ⟨-, hname⟩ := hgains
  cases hreported with
  | defined ha =>
      obtain ⟨rfl, rfl⟩ := name?_defined.mp hname
      exact ⟨fun s' n' h' => name?_defined.mp h'.2, .inl ⟨_, _, _, ha, rfl⟩⟩
  | createdGlobal ha =>
      obtain ⟨rfl, rfl⟩ := name?_defined.mp hname
      exact ⟨fun s' n' h' => name?_defined.mp h'.2, .inr ⟨_, _, ha, rfl⟩⟩
  | _ => cases hname

/-- Each report of a global binding made by an assignment stands for one new binding, of that name in
a global scope. -/
theorem Sound.gains_of_createdGlobal (h : w.Sound) {n : Name}
    (hmem : .assignmentCreatedGlobal n ∈ w.reports a) :
    ∃ r, (w.perform a).1.store.parent? r = none ∧ ∀ s m, w.Gains a s m ↔ s = r ∧ m = n := by
  simp only [h.gains_iff]
  have hreported := h.reportedChange a
  generalize w.change a = c at hreported ⊢
  generalize w.reports a = events at hmem hreported
  cases hreported with
  | @createdGlobal place t m v ha ht hb =>
      obtain rfl : n = m := by simpa using hmem
      have hlive := h.store.isLive_root (h.isLive_scopeAt? ht)
      refine ⟨w.store.root t, ?_, fun s m => ?_⟩
      · rw [(h.grows_perform a).parent? hlive]
        exact h.store.parent?_root t
      · rw [name?_defined]
        refine and_iff_right_of_imp ?_
        rintro ⟨rfl, rfl⟩
        exact h.store.binds_root_eq_false hb
  | scope htells => cases htells.isCreation_of_mem hmem
  | _ => simp at hmem

/-! ### Failures -/

theorem answer_performAt {place : Place} {operation : World → Scope → World × Result} {r : Result}
    (h : (w.performAt place operation).2 = r) (hr : r ≠ .absent) :
    ∃ s, w.scopeAt? place = some s ∧ (operation w s).2 = r := by
  unfold performAt at h
  split at h
  · exact absurd h.symm hr
  · rename_i s hs
    exact ⟨s, hs, h⟩

theorem reports_of_failed_entry {e : EnvironmentId} {place : Place}
    {answer : Environment → Result} {error : Error}
    (hfailed : (w.performEntry e place answer).2 = .failed error)
    (hanswer : ∀ env, answer env ≠ .failed error) :
    w.entryReports e place = error.reports ∧ error.name? = none := by
  unfold entryReports
  cases he : w.environment? e with
  | none =>
      rw [performEntry_of_absent (.inl he)] at hfailed
      cases hfailed
  | some env =>
      cases hs : w.scopeAt? place with
      | none =>
          rw [performEntry_of_absent (.inr hs)] at hfailed
          cases hfailed
      | some s =>
          rw [performEntry_eq he hs] at hfailed
          dsimp only
          cases hlimit : env.config.exceeded? (w.store.depth s) with
          | some limit =>
              rw [hlimit] at hfailed
              cases hfailed
              exact ⟨rfl, rfl⟩
          | none =>
              rw [hlimit] at hfailed
              exact absurd hfailed (hanswer env)

theorem Sound.reports_of_failed_assignment (h : w.Sound) {s : Scope} {n : Name} {v : Value}
    {error : Error} (hs : w.store.isLive s = true) (hfailed : (w.assign s n v).2 = .error error) :
    w.assignmentReports n s = error.reports ∧ error.name? = some n := by
  have houtcome := h.assign_outcome hs n v
  rw [hfailed] at houtcome
  generalize (w.assign s n v).1.store = after at houtcome
  unfold assignmentReports
  cases houtcome with
  | immutable hb => simp [hb, Error.reports, Error.name?]
  | undeclared hb hpolicy =>
      simp [hb, hpolicy, Policy.allowsUndeclared, Error.reports, Error.name?]

/-- A failure is reported as its error asks for, and the error names what the operation names. -/
theorem Sound.reports_of_failed (h : w.Sound) {error : Error}
    (hfailed : (w.perform a).2 = .failed error) :
    w.reports a = error.reports ∧ error.name? = a.name? := by
  have hanswer : ∀ {place : Place} {operation : World → Scope → World × Result},
      (∀ s, (operation w s).2 ≠ .failed error) →
      (w.performAt place operation).2 ≠ .failed error := by
    intro place operation hoperation hperformed
    obtain ⟨s, -, heq⟩ := answer_performAt hperformed (by rintro ⟨⟩)
    exact hoperation s heq
  cases a with
  | assign place n v =>
      obtain ⟨s, hs, heq⟩ := answer_performAt hfailed (by rintro ⟨⟩)
      simp only [reports, reportsAt, hs]
      refine h.reports_of_failed_assignment (v := v) (h.isLive_scopeAt? hs) ?_
      split at heq
      · cases heq
      · rename_i hassign
        cases heq
        rw [hassign]
  | get place n =>
      obtain ⟨s, hs, heq⟩ := answer_performAt hfailed (by rintro ⟨⟩)
      simp only [reports, reportsAt, hs]
      cases hv : w.store.lookup s n with
      | some v =>
          rw [get_of_lookup hv] at heq
          cases heq
      | none =>
          rw [get_of_unbound hv] at heq
          cases heq
          exact ⟨rfl, rfl⟩
  | enterBlock e => exact reports_of_failed_entry hfailed (by rintro _ ⟨⟩)
  | enterCall e captured => exact reports_of_failed_entry hfailed (by rintro _ ⟨⟩)
  | guardBlock e => exact reports_of_failed_entry hfailed (by rintro _ ⟨⟩)
  | guardCall e captured => exact reports_of_failed_entry hfailed (by rintro _ ⟨⟩)
  | leave e =>
      simp only [World.perform] at hfailed
      split at hfailed <;> cases hfailed
  | closure e name params body =>
      simp only [World.perform] at hfailed
      split at hfailed <;> cases hfailed
  | finish e =>
      simp only [World.perform] at hfailed
      split at hfailed <;> cases hfailed
  | newScope => cases hfailed
  | newGlobal policy => cases hfailed
  | newEnvironment config => cases hfailed
  | restore g => cases hfailed
  | discard e => cases hfailed
  | _ => exact absurd hfailed (hanswer (by rintro _ ⟨⟩))

/-! ### One operation -/

/-- The events account for what the operation does and answers. -/
structure AccountedBy (w : World) (a : Action) (events : List Event) : Prop where
  logged : (w.perform a).1.log.toList = w.log.toList ++ events
  gained : ∀ s n, w.Gains a s n → (∀ s' n', w.Gains a s' n' → s' = s ∧ n' = n) ∧
    ((∃ place v m, a = .define place n v m ∧ events = [.defined n m]) ∨
      ∃ place v, a = .assign place n v ∧ events = [.assignmentCreatedGlobal n])
  createdGlobal : ∀ n, .assignmentCreatedGlobal n ∈ events →
    ∃ r, (w.perform a).1.store.parent? r = none ∧ ∀ s m, w.Gains a s m ↔ s = r ∧ m = n
  failed : ∀ error, (w.perform a).2 = .failed error →
    events = error.reports ∧ error.name? = a.name?
  /-- An assignment that finds a binding reports nothing, be it rejected or not. -/
  assigned : ∀ place n v s, a = .assign place n v → w.scopeAt? place = some s →
    w.store.contains s n = true → events = []
  silent : a.isSilent = true → events = []
  begun : ∀ config, a = .newEnvironment config →
    events = [.globalCreated config.policy, .environmentCreated config.policy config.maxDepth] ∧
      (w.perform a).1.environment? ⟨w.environments.size⟩ = some (.start w.store.next config)
  begun_only : ∀ policy limit, .environmentCreated policy limit ∈ events →
    ∃ config, a = .newEnvironment config
  ended : ∀ e env, a = .finish e ∨ a = .discard e → w.environment? e = some env →
    events = [.environmentTornDown (w.store.bindings env.global).size] ∧
      (w.perform a).1.environment? e = none
  ended_only : ∀ released, .environmentTornDown released ∈ events →
    ∃ e env, (a = .finish e ∨ a = .discard e) ∧ w.environment? e = some env

theorem reports_of_isSilent (h : a.isSilent = true) : w.reports a = [] := by
  cases a with
  | lookup _ _ | contains _ _ | binds _ _ | mutability _ _ => rfl
  | leave _ | restore _ | capture _ | closure _ _ _ _ => rfl
  | _ => cases h

theorem Sound.accountedBy (h : w.Sound) (hw : w.Separate) (a : Action) :
    w.AccountedBy a (w.reports a) where
  logged := h.logs_perform a
  gained _ _ := h.reports_of_gains
  createdGlobal _ := h.gains_of_createdGlobal
  failed _ := h.reports_of_failed
  assigned := by
    rintro place n v s rfl hs hcontains
    rw [Store.contains_eq_isSome_binder?, Option.isSome_iff_exists] at hcontains
    obtain ⟨b, hb⟩ := hcontains
    simp only [reports, reportsAt, hs, assignmentReports, hb]
  silent := reports_of_isSilent
  begun := by
    rintro config rfl
    refine ⟨rfl, ?_⟩
    rw [environment?, environments_perform, move, Move.apply, Array.getElem?_push_size]
    rfl
  begun_only _ _ := (h.reportedChange a).exists_newEnvironment
  ended := by
    intro e env ha he
    have hending : w.endingReports e =
        [.environmentTornDown (w.store.bindings env.global).size] := by
      simp [endingReports, he, hw.running he]
    rcases ha with rfl | rfl
    · exact ⟨hending, (environment?_perform he _).trans (if_pos rfl)⟩
    · exact ⟨hending, (environment?_perform he _).trans (if_pos rfl)⟩
  ended_only _ := (h.reportedChange a).exists_environment

/-! ### Runs -/

/-- The log balances against the world.  Its events of new scopes tell of the scopes, and those of new
environments tell of the environments, one each and in the order of their creation. -/
structure Balanced (w : World) : Prop where
  created : (w.log.toList.filter Event.isCreation).length = w.store.frames.size
  told : ∀ i event, (w.log.toList.filter Event.isCreation)[i]? = some event →
    ∃ f, w.store.frame? ⟨i⟩ = some f ∧ event.TellsOf f
  begun : (w.log.toList.filter Event.isBeginning).length = w.environments.size
  configured : ∀ e env, w.environment? e = some env →
    (w.log.toList.filter Event.isBeginning)[e.index]? =
      some (.environmentCreated env.config.policy env.config.maxDepth)
  introduced : Event.Introduced w.log.toList

theorem balanced_empty : World.empty.Balanced where
  created := rfl
  told _ _ h := by cases h
  begun := rfl
  configured _ _ h := by cases h
  introduced := by
    intro before policy limit after h
    exact absurd h (by simp [World.empty])

theorem size_environments_perform (h : ∀ config, a ≠ .newEnvironment config) :
    (w.perform a).1.environments.size = w.environments.size := by
  rw [environments_perform]
  cases hmove : w.move a with
  | begun env =>
      obtain ⟨config, ha, -⟩ := eq_newEnvironment_of_begun hmove
      exact absurd ha (h config)
  | _ => simp [Move.apply]

namespace Balanced

theorem told_perform (hb : w.Balanced) (h : w.Sound) {i : Nat} {event : Event}
    (hevent : (w.log.toList.filter Event.isCreation)[i]? = some event) :
    ∃ f, (w.perform a).1.store.frame? ⟨i⟩ = some f ∧ event.TellsOf f := by
  obtain ⟨f, hf, htells⟩ := hb.told i event hevent
  obtain ⟨g, hg, hparent, hdepth, hpolicy⟩ := (h.grows_perform a).frame? hf
  exact ⟨g, hg, htells.congr hparent hdepth hpolicy⟩

theorem creations_perform (hb : w.Balanced) (h : w.Sound) (a : Action) :
    ((w.perform a).1.log.toList.filter Event.isCreation).length =
        (w.perform a).1.store.frames.size ∧
      ∀ i event, ((w.perform a).1.log.toList.filter Event.isCreation)[i]? = some event →
        ∃ f, (w.perform a).1.store.frame? ⟨i⟩ = some f ∧ event.TellsOf f := by
  have hcreated := hb.created
  have hnext : (w.perform a).1.store.frames.size = ((w.change a).apply w.store).next.index := by
    rw [h.store_perform a]
    rfl
  rw [h.logs_perform a, List.filter_append, hnext]
  obtain ⟨hnone, hchange⟩ | ⟨f, event, hchange, hone, htells⟩ := (h.reportedChange a).creations
  · rw [hnone, List.append_nil, hcreated]
    exact ⟨congrArg Scope.index (Store.origin?_apply hchange).1.symm, fun i event hevent =>
      hb.told_perform h hevent⟩
  · rw [hone, List.length_append, hcreated]
    refine ⟨?_, fun i told htold => ?_⟩
    · rw [hchange]
      exact (Array.size_push _).symm
    · by_cases hi : i < w.store.frames.size
      · rw [List.getElem?_append_left (hcreated ▸ hi)] at htold
        exact hb.told_perform h htold
      · -- Only the event of the new scope is left, at the place of its handle.
        rw [List.getElem?_append_right (by omega), List.getElem?_singleton] at htold
        split at htold
        · rename_i hlast
          obtain rfl := Option.some.inj htold
          obtain rfl : i = w.store.frames.size := by omega
          refine ⟨f, ?_, htells⟩
          rw [h.store_perform a, hchange]
          exact (Store.frame?_add _ _ _).trans (if_pos rfl)
        · cases htold

theorem beginnings_perform (hb : w.Balanced) (h : w.Sound) (a : Action) :
    ((w.perform a).1.log.toList.filter Event.isBeginning).length =
        (w.perform a).1.environments.size ∧
      ∀ e env, (w.perform a).1.environment? e = some env →
        ((w.perform a).1.log.toList.filter Event.isBeginning)[e.index]? =
          some (.environmentCreated env.config.policy env.config.maxDepth) := by
  rw [h.logs_perform a, List.filter_append]
  refine ⟨?_, fun e env he => ?_⟩
  · rw [List.length_append, hb.begun]
    by_cases hnew : ∃ config, a = .newEnvironment config
    · obtain ⟨config, rfl⟩ := hnew
      rw [environments_perform]
      exact (Array.size_push _).symm
    · rw [size_environments_perform fun config ha => hnew ⟨config, ha⟩]
      suffices hnone : (w.reports a).filter Event.isBeginning = [] by simp [hnone]
      refine List.filter_eq_nil_iff.mpr fun event hevent hbeginning => ?_
      cases event with
      | environmentCreated policy limit =>
          exact hnew ((h.reportedChange a).exists_newEnvironment hevent)
      | _ => cases hbeginning
  · obtain ⟨before, hbefore, hcont⟩ | ⟨config, rfl, hindex, rfl⟩ := environment_cases he
    · have hindex := index_lt_of_environment? hbefore
      rw [List.getElem?_append_left (hb.begun ▸ hindex), hb.configured e before hbefore,
        hcont.config]
    · rw [List.getElem?_append_right (by rw [hb.begun, hindex]), hb.begun, hindex, Nat.sub_self]
      rfl

/-- An operation keeps the balance. -/
theorem perform (hb : w.Balanced) (h : w.Sound) (a : Action) : (w.perform a).1.Balanced where
  created := (hb.creations_perform h a).1
  told := (hb.creations_perform h a).2
  begun := (hb.beginnings_perform h a).1
  configured := (hb.beginnings_perform h a).2
  introduced := by
    rw [h.logs_perform a]
    exact hb.introduced.append (h.reportedChange a).introduced

end Balanced

theorem balanced_of_run (actions : List Action) : (World.empty.performAll actions).1.Balanced := by
  induction actions using List.reverseRecOn with
  | nil => exact balanced_empty
  | append_singleton actions a ih =>
      rw [performAll_append]
      exact ih.perform (sound_of_run actions) a

/-- The log of a run balances against the world that it reaches, and it holds as many ends of runs as
environments are gone, which do not come back.  Whatever comes next, its events account for what it
does and answers. -/
theorem events_account_for_run (actions : List Action) :
    let w := (World.empty.performAll actions).1
    w.Balanced ∧ w.log.toList.countP Event.isTearDown = w.gone ∧
      (∀ e, e.index < w.environments.size → w.environment? e = none →
        ∀ later, (w.performAll later).1.environment? e = none) ∧
      ∀ a, ∃ events, w.AccountedBy a events :=
  ⟨balanced_of_run actions, countP_log_of_run actions,
    fun _ hlt he => absent_performAll hlt he,
    fun a => ⟨_, (sound_of_run actions).accountedBy (separate_of_run actions) a⟩⟩

/-- A block in which a name is read that an assignment has not bound yet, and then the end of the
run. -/
theorem events_of_assignment_in_block :
    let w := (World.empty.performAll [.newEnvironment {}, .enterBlock ⟨0⟩]).1
    let n : Name := ⟨"x"⟩
    (w.log.toList.filter Event.isCreation).length = 2 ∧
      (w.perform (.get (.current ⟨0⟩) n)).1.log.toList = w.log.toList ++ [.undefinedRead n] ∧
      (w.perform (.assign (.current ⟨0⟩) n .void)).1.log.toList =
        w.log.toList ++ [.assignmentCreatedGlobal n] ∧
      (w.perform (.leave ⟨0⟩)).1.log.toList = w.log.toList ∧
      (w.perform (.finish ⟨0⟩)).1.log.toList = w.log.toList ++ [.environmentTornDown 0] ∧
      ((w.perform (.finish ⟨0⟩)).1.performAll [.newEnvironment {}]).1.environment? ⟨0⟩ = none := by
  intro w n
  obtain ⟨hbalanced, -, -, haccounted⟩ :=
    events_account_for_run [.newEnvironment {}, .enterBlock ⟨0⟩]
  obtain ⟨_, hget⟩ := haccounted (.get (.current ⟨0⟩) n)
  obtain ⟨_, hassign⟩ := haccounted (.assign (.current ⟨0⟩) n .void)
  obtain ⟨_, hleave⟩ := haccounted (.leave ⟨0⟩)
  obtain ⟨_, hfinish⟩ := haccounted (.finish ⟨0⟩)
  have hgains : w.Gains (.assign (.current ⟨0⟩) n .void) ⟨0⟩ n := ⟨by decide, by decide⟩
  obtain ⟨-, -, hgone, -⟩ :=
    events_account_for_run [.newEnvironment {}, .enterBlock ⟨0⟩, .finish ⟨0⟩]
  refine ⟨hbalanced.created, ?_, ?_, ?_, ?_, hgone ⟨0⟩ (by decide) rfl _⟩
  · rw [hget.logged, (hget.failed (.undefined n) rfl).1]
    rfl
  · obtain ⟨-, ⟨_, _, _, ⟨⟩, -⟩ | ⟨_, _, -, hevents⟩⟩ := hassign.gained ⟨0⟩ n hgains
    rw [hassign.logged, hevents]
  · rw [hleave.logged, hleave.silent rfl, List.append_nil]
  · rw [hfinish.logged, (hfinish.ended ⟨0⟩ _ (.inl rfl) rfl).1]
    rfl

end World

end ScopeChain
