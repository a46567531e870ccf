import ScopeChain.Proofs.ChainShape
import ScopeChain.Proofs.GuardedStack
import ScopeChain.Session.Run

/-!
The depth limit.  A block or a call is entered, under a guard or without one, unless its scope would
stand deeper than the limit of the environment.  An entry that is refused changes nothing, and a body
that was to run inside does not run.  One that succeeds adds a new scope and puts it on the stack.
-/

namespace ScopeChain

/-- The operation that enters a block or, given a captured scope, a call. -/
def Action.entering (e : EnvironmentId) : Option Scope → Action
  | none => .enterBlock e
  | some captured => .enterCall e captured

/-- The place inside which a block or, given a captured scope, a call is entered. -/
def Place.around (e : EnvironmentId) : Option Scope → Place
  | none => .current e
  | some captured => .scope captured

theorem Config.exceeded?_eq_some_iff {c : Config} {depth : Nat} {limit : UInt64} :
    c.exceeded? depth = some limit ↔ c.maxDepth = some limit ∧ limit.toNat < depth + 1 := by
  rw [exceeded?, Option.filter_eq_some_iff, decide_eq_true_iff, Nat.lt_succ_iff]

namespace World

/-- After an entry the environment has the new scope `s` entered, which stands inside `p`, and all
else is as before. -/
structure Entered (before after : World) (e : EnvironmentId) (env : Environment) (p s : Scope) :
    Prop where
  fresh : before.store.isLive s = false
  frame : after.store.frame? s =
    some ⟨.empty, some p, min (before.store.depth p + 1) greatestDepth, before.store.policy p⟩
  chain : after.store.chain s = s :: before.store.chain p
  depth : (after.store.chain s).length ≤ UInt64.size →
    after.store.depth s = before.store.depth p + 1
  within : ∀ limit, env.config.maxDepth = some limit →
    after.store.depth s = before.store.depth p + 1 ∧ after.store.depth s ≤ limit.toNat
  others : ∀ t, t ≠ s → after.store.frame? t = before.store.frame? t
  top : after.environment? e = some { env with stack := s :: env.stack }
  environments : ∀ e', e' ≠ e → after.environment? e' = before.environment? e'

/-- An attempt to enter a scope inside `p` is refused if and only if that scope would be too deep,
and then changes nothing; otherwise it gives the answer, and a new scope is entered. -/
structure LimitedEntry (w : World) (e : EnvironmentId) (env : Environment) (p : Scope)
    (answer : Result) (attempt : World × Result) : Prop where
  refused_iff : ∀ error, attempt.2 = .failed error ↔
    ∃ limit, env.config.maxDepth = some limit ∧ limit.toNat < w.store.depth p + 1 ∧
      error = .tooDeep limit
  refused : ∀ error, attempt.2 = .failed error →
    attempt.1.store = w.store ∧ attempt.1.environments = w.environments
  entered : (∀ error, attempt.2 ≠ .failed error) →
    attempt.2 = answer ∧ ∃ s, w.Entered attempt.1 e env p s

variable {w : World} {e : EnvironmentId} {env : Environment} {p : Scope}

theorem perform_entering (w : World) (e : EnvironmentId) (captured : Option Scope) :
    w.perform (.entering e captured) = w.performEntry e (.around e captured) fun _ => .done := by
  cases captured <;> rfl

theorem perform_guarding (w : World) (e : EnvironmentId) (captured : Option Scope) :
    w.perform (.guarding e captured) =
      w.performEntry e (.around e captured) fun env => .guard ⟨e, env.size⟩ := by
  cases captured <;> rfl

/-! ### The limit decides -/

/-- The depth is counted far enough for every limit. -/
theorem Sound.lt_depth_iff (h : w.Sound) (p : Scope) (limit : UInt64) :
    limit.toNat < w.store.depth p + 1 ↔ limit.toNat < (w.store.chain p).length := by
  have hlimit : limit.toNat < greatestDepth + 1 := limit.toNat_lt
  rw [h.store.depth_add_one, Nat.lt_min]
  exact and_iff_left hlimit

theorem frame?_newScope {f : Frame} (hf : w.store.frame? p = some f) (t : Scope) :
    (w.newScope (some p)).1.store.frame? t =
      if t = w.store.next then some (f.inside p) else w.store.frame? t := by
  rw [(newScope_some hf).1, Store.frame?_add]

theorem Sound.entered_newScope (h : w.Sound) (he : w.environment? e = some env)
    (hp : w.store.isLive p = true)
    (hlimit : ∀ limit, env.config.maxDepth = some limit → w.store.depth p + 1 ≤ limit.toNat) :
    w.Entered ((w.newScope (some p)).1.updateEnvironment e (·.enter w.store.next)) e env p
      w.store.next := by
  obtain ⟨f, hf⟩ := Store.isLive_iff.mp hp
  have hnew : (w.newScope (some p)).1.Sound := (h.newScope_inside hp).1
  have hframe : (w.newScope (some p)).1.store.frame? w.store.next = some (f.inside p) := by
    rw [frame?_newScope hf, if_pos rfl]
  have hparent : (w.newScope (some p)).1.store.parent? w.store.next = some p := by
    rw [Store.parent?, hframe]
    rfl
  have hdepth : (w.newScope (some p)).1.store.depth w.store.next =
      min (w.store.depth p + 1) greatestDepth := by
    simp only [Store.depth, hframe, hf, Frame.inside]
  have hgrows : w.store.Grows (w.newScope (some p)).1.store := by
    rw [store_newScope hp]
    exact .apply w.store _
  have hchain : (w.newScope (some p)).1.store.chain w.store.next =
      w.store.next :: w.store.chain p := by
    rw [hnew.store.chain_eq, hparent]
    exact congrArg _ (hgrows.chain h.store hnew.store hp)
  refine ⟨w.store.isLive_next, ?_, hchain, fun hlength => ?_, fun limit hmax => ?_, fun t ht => ?_,
    environment?_entered he p, fun e' hne => ?_⟩
  · change (w.newScope (some p)).1.store.frame? w.store.next = _
    rw [hframe]
    simp only [Store.depth, Store.policy, hf, Frame.inside]
  · change (w.newScope (some p)).1.store.depth w.store.next = _
    have hcounted := h.store.depth_add_one p
    change ((w.newScope (some p)).1.store.chain w.store.next).length ≤ greatestDepth + 1 at hlength
    rw [hchain, List.length_cons] at hlength
    omega
  · change (w.newScope (some p)).1.store.depth w.store.next = _ ∧
      (w.newScope (some p)).1.store.depth w.store.next ≤ _
    have hle := hlimit limit hmax
    have hcounted : limit.toNat ≤ greatestDepth := Nat.le_of_lt_succ limit.toNat_lt
    omega
  · exact (frame?_newScope hf t).trans (if_neg ht)
  · rw [environment?_updateEnvironment, if_neg hne.symm, environment?, newScope_environments]
    rfl

/-- Whatever is entered, the limit decides alone. -/
theorem Sound.limitedEntry (h : w.Sound) {place : Place} (he : w.environment? e = some env)
    (hp : w.scopeAt? place = some p) (answer : Environment → Result)
    (hanswer : ∀ error, answer env ≠ .failed error) :
    w.LimitedEntry e env p (answer env) (w.performEntry e place answer) := by
  rw [performEntry_eq he hp]
  cases hlimit : env.config.exceeded? (w.store.depth p) with
  | some limit =>
      obtain ⟨hmax, hdeep⟩ := Config.exceeded?_eq_some_iff.mp hlimit
      refine ⟨fun error => ⟨?_, ?_⟩, fun _ _ => ⟨rfl, rfl⟩, fun hnot => ?_⟩
      · rintro ⟨rfl⟩
        exact ⟨limit, hmax, hdeep, rfl⟩
      · rintro ⟨limit', hmax', -, rfl⟩
        rw [Option.some.inj (hmax.symm.trans hmax')]
      · exact absurd rfl (hnot (.tooDeep limit))
  | none =>
      have hfits : ∀ limit, env.config.maxDepth = some limit →
          w.store.depth p + 1 ≤ limit.toNat := by
        intro limit hmax
        by_contra hdeep
        have hexceeded := Config.exceeded?_eq_some_iff.mpr ⟨hmax, Nat.lt_of_not_le hdeep⟩
        cases hlimit.symm.trans hexceeded
      refine ⟨fun error => ⟨fun hfailed => absurd hfailed (hanswer error), ?_⟩,
        fun error hfailed => absurd hfailed (hanswer error), fun _ => ⟨rfl, ?_⟩⟩
      · rintro ⟨limit, hmax, hdeep, -⟩
        exact absurd (hfits limit hmax) (Nat.not_le_of_lt hdeep)
      · exact ⟨w.store.next, h.entered_newScope he (h.isLive_scopeAt? hp) hfits⟩

theorem Sound.limitedEntry_guarding (h : w.Sound) {captured : Option Scope}
    (he : w.environment? e = some env) (hp : w.scopeAt? (.around e captured) = some p) :
    w.LimitedEntry e env p (.guard ⟨e, env.size⟩) (w.perform (.guarding e captured)) := by
  rw [perform_guarding]
  exact h.limitedEntry he hp (fun env => .guard ⟨e, env.size⟩) fun _ => nofun

/-! ### Bodies -/

/-- What was reported so far has no part in what a world has and holds. -/
theorem Sound.congr (h : w.Sound) {w' : World} (hstore : w'.store = w.store)
    (henv : w'.environments = w.environments) : w'.Sound where
  store := hstore ▸ h.store
  held he hs := by
    rw [environment?, henv] at he
    rw [hstore]
    exact h.held he hs

theorem scopeAt?_congr {w' : World} (hstore : w'.store = w.store)
    (henv : w'.environments = w.environments) (place : Place) :
    w'.scopeAt? place = w.scopeAt? place := by
  cases place <;> simp only [scopeAt?, environment?, hstore, henv]

end World

open Script

variable {s : Session} {on : Option ScopeRef} {door : Entrance} {a : Action}

theorem Session.step_guarded_of_refused (ha : (s.namedScope on *> s.entrance door) = .ok a)
    {error : Error} (hrefused : (s.world.perform a).2 = .failed error) (untilFailure : Bool)
    (body : List Step) :
    s.step (.guarded on door untilFailure body) =
      ({ s with world := (s.world.perform a).1 }.reply (.error error), none) := by
  rw [Session.step, ha]
  simp only [Session.act, hrefused]
  rfl

theorem Session.step_guarded_of_entered (ha : (s.namedScope on *> s.entrance door) = .ok a)
    {g : Guard} (hentered : (s.world.perform a).2 = .guard g) (untilFailure : Bool)
    (body : List Step) :
    s.step (.guarded on door untilFailure body) =
      let ran := { s with world := (s.world.perform a).1 }.beginGuarded.steps untilFailure 0 body
      (ran.1.endGuarded g ran.2, ran.2.panic) := by
  rw [Session.step, ha]
  simp only [Session.act, hentered]

namespace World

/-- An entry of a block or of a call, under a guard or without one, is refused if and only if the
limit is exceeded by the depth that the new scope would have, and so by the number of scopes around
it.  A body that a script has under the guard is then left out; else it runs in the entered scope. -/
theorem entries_within_limit (actions : List Action) {e : EnvironmentId} {env : Environment}
    {p : Scope} (captured : Option Scope)
    (he : (World.empty.performAll actions).1.environment? e = some env)
    (hp : (World.empty.performAll actions).1.scopeAt? (.around e captured) = some p) :
    let w := (World.empty.performAll actions).1
    w.LimitedEntry e env p .done (w.perform (.entering e captured)) ∧
      w.LimitedEntry e env p (.guard ⟨e, env.size⟩) (w.perform (.guarding e captured)) ∧
      (∀ limit : UInt64,
        limit.toNat < w.store.depth p + 1 ↔ limit.toNat < (w.store.chain p).length) ∧
      ∀ (s : Session) (on : Option ScopeRef) (door : Entrance),
        s.world.store = w.store → s.world.environments = w.environments →
        (s.namedScope on *> s.entrance door) = .ok (.guarding e captured) →
        let attempt := s.world.perform (.guarding e captured)
        let after := { s with world := attempt.1 }
        s.world.LimitedEntry e env p (.guard ⟨e, env.size⟩) attempt ∧
          ∀ (untilFailure : Bool) (body : List Step),
            match attempt.2 with
            | .failed error =>
                s.step (.guarded on door untilFailure body) = (after.reply (.error error), none)
            | _ =>
                s.step (.guarded on door untilFailure body) =
                  let ran := after.beginGuarded.steps untilFailure 0 body
                  (ran.1.endGuarded ⟨e, env.size⟩ ran.2, ran.2.panic) := by
  intro w
  have h : w.Sound := sound_of_run actions
  refine ⟨?_, h.limitedEntry_guarding he hp, h.lt_depth_iff p, ?_⟩
  · rw [perform_entering]
    exact h.limitedEntry he hp (fun _ => .done) fun _ => nofun
  · intro s on door hstore henv ha attempt after
    have hsession : s.world.environment? e = some env := by
      rw [environment?, henv]
      exact he
    have hguarding : s.world.LimitedEntry e env p (.guard ⟨e, env.size⟩) attempt :=
      (h.congr hstore henv).limitedEntry_guarding hsession
        ((scopeAt?_congr hstore henv _).trans hp)
    refine ⟨hguarding, fun untilFailure body => ?_⟩
    split
    · rename_i error hrefused
      exact Session.step_guarded_of_refused ha hrefused untilFailure body
    · rename_i hnot
      exact Session.step_guarded_of_entered ha (hguarding.entered hnot).1 untilFailure body

/-- At the limit a block is refused with its body, and a call of a function from further out is
entered. -/
theorem entries_at_limit :
    let w := (World.empty.performAll [.newEnvironment { maxDepth := some 1 }, .enterBlock ⟨0⟩]).1
    let s : Session := { Session.empty with world := w, environment := some ⟨0⟩ }
    w.environment? ⟨0⟩ = some ⟨[⟨1⟩, ⟨0⟩], ⟨0⟩, { maxDepth := some 1 }, false⟩ ∧
      (w.perform (.guarding ⟨0⟩ none)).2 = .failed (.tooDeep 1) ∧
      s.step (.guarded none .block false [.panic none "unreached"]) =
        ({ s with world := (w.perform (.guarding ⟨0⟩ none)).1 }.reply (.error (.tooDeep 1)), none) ∧
      ∃ s, w.Entered (w.perform (.entering ⟨0⟩ (some ⟨0⟩))).1 ⟨0⟩
        ⟨[⟨1⟩, ⟨0⟩], ⟨0⟩, { maxDepth := some 1 }, false⟩ ⟨0⟩ s := by
  intro w s
  have he : w.environment? ⟨0⟩ = some ⟨[⟨1⟩, ⟨0⟩], ⟨0⟩, { maxDepth := some 1 }, false⟩ := rfl
  obtain ⟨-, hblock, -, hbody⟩ := entries_within_limit _ none he rfl
  obtain ⟨hcall, -⟩ := entries_within_limit _ (some ⟨0⟩) he rfl
  obtain ⟨-, hstep⟩ := hbody s none .block rfl rfl rfl
  refine ⟨he, (hblock.refused_iff _).mpr ⟨1, rfl, by decide, rfl⟩, hstep false _,
    (hcall.entered ?_).2⟩
  intro error hrefused
  obtain ⟨limit, hmax, hdeep, -⟩ := (hcall.refused_iff error).mp hrefused
  obtain rfl := Option.some.inj hmax
  exact absurd hdeep (by decide)

end World

end ScopeChain
