import ScopeChain.Proofs.FollowedRuns

/-!
Commands follow runs.  An expression makes payloads of its own, and its value has all that it needs
in them; a command reads what the session holds and performs a series of operations on that, or it
drops a handle.  So a session that follows a run still does after every command.
-/

namespace ScopeChain.Session

open Script

variable {s s' : Session} {full : World} {p : Payloads} {a : Action} {v : Value} {sc : Scope}

/-- There is a run that the session follows. -/
def FollowsRun (s : Session) : Prop :=
  ∃ full p, s.Follows full p

theorem environment_of_require {e : EnvironmentId} (h : s.requireEnvironmentId = .ok e) :
    s.environment = some e := by
  unfold requireEnvironmentId at h
  split at h
  · rename_i he
    exact Except.ok.inj h ▸ he
  · cases h

/-! ### Expressions -/

theorem exists_nest {live : Scope → Prop} (hp : p.Consistent) (hv : v.Fits live p) (n : Nat) :
    ∃ p', p.Extends p' ∧ p'.Consistent ∧ p'.count = (nest v p.count n).2 ∧
      (nest v p.count n).1.Fits live p' := by
  induction n generalizing p v with
  | zero => exact ⟨p, .refl p, hp, rfl, hv⟩
  | succ n ih =>
      have hvs : ∀ w ∈ [v], w.Fits live p := fun w hw => List.mem_singleton.mp hw ▸ hv
      obtain ⟨p', hext, hp', hcount, hv'⟩ := ih (hp.add hvs) (Payloads.fits_add hvs)
      exact ⟨p', (p.extends_add [v]).trans hext, hp', hcount, hv'⟩

namespace Follows

mutual

/-- The value of an expression has all that it needs, in the payloads that are made with it. -/
theorem exists_payloads {s : Session} {full : World} {p₀ p : Payloads} (h : s.Follows full p₀)
    (hext : p₀.Extends p) (hp : p.Consistent) (x : Expr) {v : Value} {k : Nat}
    (hx : s.evaluateFrom p.count x = .ok (v, k)) :
    ∃ p', p.Extends p' ∧ p'.Consistent ∧ p'.count = k ∧ s.world.store.Carries p' v := by
  cases x with
  | void | bool | int | float | builtin =>
      rw [evaluateFrom] at hx
      cases hx
      exact ⟨p, .refl p, hp, rfl, .plain rfl⟩
  | text t =>
      rw [evaluateFrom] at hx
      cases hx
      exact ⟨p.add [], p.extends_add [], hp.add_nil, rfl, .plain rfl⟩
  | list items =>
      rw [evaluateFrom] at hx
      split at hx
      · rename_i vs k' hitems
        cases hx
        obtain ⟨p', hext', hp', rfl, hvs⟩ := exists_payloads_items h hext hp items hitems
        exact ⟨p'.add vs, hext'.trans (p'.extends_add vs), hp'.add hvs, rfl, Payloads.fits_add hvs⟩
      · cases hx
  | function name params body r =>
      rw [evaluateFrom] at hx
      split at hx
      · rename_i hsc
        cases hx
        exact ⟨p, .refl p, hp, rfl, .function (h.isLive_scope hsc)⟩
      · cases hx
  | register r =>
      rw [evaluateFrom] at hx
      split at hx
      · rename_i hr
        cases hx
        exact ⟨p, .refl p, hp, rfl, (h.values r _ hr).mono (fun _ hs => hs) hext⟩
      · cases hx
  | nested n item =>
      rw [evaluateFrom] at hx
      split at hx
      · rename_i v' k' hitem
        obtain ⟨p', hext', hp', rfl, hv⟩ := exists_payloads h hext hp item hitem
        obtain ⟨p'', hext'', hp'', hcount, hv'⟩ := exists_nest hp' hv n
        rw [Except.ok.inj hx] at hcount hv'
        exact ⟨p'', hext'.trans hext'', hp'', hcount, hv'⟩
      · cases hx
  | invalid =>
      rw [evaluateFrom] at hx
      cases hx

theorem exists_payloads_items {s : Session} {full : World} {p₀ p : Payloads}
    (h : s.Follows full p₀) (hext : p₀.Extends p) (hp : p.Consistent) (items : List Expr)
    {vs : List Value} {k : Nat} (hx : s.evaluateItems p.count items = .ok (vs, k)) :
    ∃ p', p.Extends p' ∧ p'.Consistent ∧ p'.count = k ∧
      ∀ v ∈ vs, s.world.store.Carries p' v := by
  cases items with
  | nil =>
      rw [evaluateItems] at hx
      cases hx
      exact ⟨p, .refl p, hp, rfl, List.forall_mem_nil _⟩
  | cons item rest =>
      rw [evaluateItems] at hx
      split at hx
      · cases hx
      · rename_i v k₁ hitem
        obtain ⟨p₁, hext₁, hp₁, rfl, hv⟩ := exists_payloads h hext hp item hitem
        split at hx
        · cases hx
        · rename_i vs k₂ hrest
          obtain ⟨p₂, hext₂, hp₂, rfl, hvs⟩ :=
            exists_payloads_items h (hext.trans hext₁) hp₁ rest hrest
          cases hx
          refine ⟨p₂, hext₁.trans hext₂, hp₂, rfl, fun u hu => ?_⟩
          rcases List.mem_cons.mp hu with rfl | hu
          · exact hv.mono (fun _ hs => hs) hext₂
          · exact hvs u hu

end

theorem evaluate (h : s.Follows full p) {x : Expr} (hx : s.evaluate x = .ok (v, s')) :
    ∃ p', s'.Follows full p' ∧ s'.world = s.world ∧ s.world.store.Carries p' v := by
  unfold Session.evaluate at hx
  split at hx
  · rename_i k hk
    rw [← h.count] at hk
    obtain ⟨p', hext, hp', rfl, hv⟩ := h.exists_payloads (.refl p) h.consistent x hk
    cases hx
    exact ⟨p', h.allocate hext hp', rfl, hv⟩
  · cases hx

/-! ### Series of operations -/

/-- A new scope inside one that the session has. -/
theorem newChild (h : s.Follows full p) (hsc : s.world.store.isLive sc = true) :
    ({ s with world := (s.world.perform (.newChild (.scope sc))).1 }).Follows
      (full.perform (.newChild (.scope sc))).1 p :=
  h.act (a := .newChild (.scope sc)) rfl (Store.provides_scope (.some hsc))

theorem isLive_perform (h : s.Follows full p) (hsc : s.world.store.isLive sc = true) (a : Action) :
    (s.world.perform a).1.store.isLive sc = true :=
  (h.part.sound.grows_perform a).isLive hsc

theorem descendFrom (h : s.Follows full p) (hsc : s.world.store.isLive sc = true) (n : Nat) :
    ∃ full', ({ s with world := (Session.descendFrom s.world sc n).1 }).Follows full' p ∧
      (Session.descendFrom s.world sc n).1.store.isLive
        (Session.descendFrom s.world sc n).2 = true := by
  induction n generalizing s full sc with
  | zero => exact ⟨full, h, hsc⟩
  | succ n ih =>
      have hchild := h.newChild hsc
      have hgiven := h.part.sound.provides_perform h.closed (.newChild (.scope sc))
      have hkept := h.isLive_perform hsc (.newChild (.scope sc))
      rw [Session.descendFrom]
      split
      · rename_i heq
        rw [heq] at hchild hgiven
        exact ih hchild (hgiven.scope _ rfl)
      · rename_i heq
        rw [heq] at hchild hkept
        exact ⟨_, hchild, hkept⟩

theorem allocateList (h : s.Follows full p) {vs : List Value}
    (hvs : ∀ v ∈ vs, s.world.store.Carries p v) :
    ({ s with allocations := s.allocations + 1 }).Follows full (p.add vs) ∧
      s.world.store.Carries (p.add vs) (.list ⟨s.allocations⟩ vs) := by
  rw [← h.count]
  exact ⟨h.allocate (p.extends_add vs) (h.consistent.add hvs), Payloads.fits_add hvs⟩

/-- A link has two payloads of its own. -/
theorem exists_link (h : s.Follows full p) (hsc : s.world.store.isLive sc = true) (inList : Bool) :
    ∃ p', ({ s with allocations := s.allocations + 2 }).Follows full p' ∧
      s.world.store.Carries p' (link sc s.allocations inList) := by
  have hclosure : s.world.store.Carries p (.function ⟨none, [], ⟨1⟩, sc⟩) := .function hsc
  have hinner : ∀ v ∈ [Value.function ⟨none, [], ⟨1⟩, sc⟩], s.world.store.Carries p v :=
    fun v hv => List.mem_singleton.mp hv ▸ hclosure
  obtain ⟨hfirst, hlist⟩ := h.allocateList hinner
  have houter : ∀ v ∈ [Value.int 0, .list ⟨s.allocations⟩ [.function ⟨none, [], ⟨1⟩, sc⟩]],
      s.world.store.Carries (p.add [.function ⟨none, [], ⟨1⟩, sc⟩]) v := by
    intro v hv
    rcases List.mem_cons.mp hv with rfl | hv
    · exact .plain rfl
    · exact List.mem_singleton.mp hv ▸ hlist
  obtain ⟨hsecond, hlink⟩ := hfirst.allocateList houter
  refine ⟨_, hsecond, ?_⟩
  cases inList with
  | true => exact hlink
  | false =>
      refine hclosure.mono (fun _ hs => hs) ?_
      exact (p.extends_add _).trans (Payloads.extends_add _ _)

/-- A definition in a scope that the session has. -/
theorem define (h : s.Follows full p) {place : Place}
    (hplace : s.world.store.Knows place.scope?)
    (hv : s.world.store.Carries p v) (n : Name) (m : Mutability) :
    ({ s with world := (s.world.perform (.define place n v m)).1 }).Follows
      (full.perform (.define place n v m)).1 p :=
  h.act (a := .define place n v m) rfl (Store.provides_value hplace hv)

theorem closureChainFrom (h : s.Follows full p) {base : Scope}
    (hbase : s.world.store.isLive base = true) (hsc : s.world.store.isLive sc = true)
    (inList : Bool) (n : Nat) :
    ∃ full' p' world last allocations,
      Session.closureChainFrom base inList s.world sc s.allocations n = (world, last, allocations) ∧
        ({ s with world := world, allocations := allocations }).Follows full' p' ∧
        world.store.isLive last = true := by
  induction n generalizing s full p sc with
  | zero => exact ⟨full, p, _, _, _, rfl, h, hsc⟩
  | succ n ih =>
      have hchild := h.newChild hbase
      have hgiven := h.part.sound.provides_perform h.closed (.newChild (.scope base))
      have hkept := h.isLive_perform hsc (.newChild (.scope base))
      have hbase' := h.isLive_perform hbase (.newChild (.scope base))
      rw [Session.closureChainFrom]
      split
      · rename_i w child heq
        rw [heq] at hchild hgiven hkept hbase'
        have hlive := hgiven.scope _ rfl
        have hplace : w.store.Knows (Place.scope child).scope? := .some hlive
        obtain ⟨p', hmade, hlink⟩ := hchild.exists_link hkept inList
        have hdefined := hmade.define hplace hlink linkName .mutable
        exact ih hdefined (hmade.isLive_perform hbase' _) (hmade.isLive_perform hlive _)
      · rename_i heq
        rw [heq] at hchild hkept
        exact ⟨_, p, _, _, _, rfl, hchild, hkept⟩

theorem fillFrom (h : s.Follows full p) {place : Place}
    (hplace : s.world.store.Knows place.scope?) (name : String) (i n : Nat) :
    ∃ full', ({ s with world := Session.fillFrom place name s.world i n }).Follows full' p := by
  induction n generalizing s full i with
  | zero => exact ⟨full, h⟩
  | succ n ih =>
      have hdefined := h.define hplace (v := .int (Int64.ofNat i)) (.plain rfl)
        ⟨name ++ toString i⟩ .mutable
      exact ih hdefined (fun sc hsc => h.isLive_perform (hplace sc hsc) _) (i + 1)

/-! ### What commands read -/

theorem knows_namedScope (h : s.Follows full p) {ref : Option ScopeRef} {on : Option Scope}
    (hon : s.namedScope ref = .ok on) : s.world.store.Knows on := by
  cases ref with
  | none =>
      cases hon
      exact .none _
  | some r =>
      obtain ⟨t, ht, rfl⟩ := ok_of_map hon
      exact .some (h.isLive_scope ht)

theorem knows_placeOf {on : Option Scope} {place : Place} (hon : s.world.store.Knows on)
    (hplace : s.placeOf on = .ok place) : s.world.store.Knows place.scope? := by
  cases on with
  | some t =>
      cases hplace
      exact hon
  | none =>
      obtain ⟨e, -, rfl⟩ := ok_of_map hplace
      exact .none _

end Follows

/-- If it gives a session, that session follows a run. -/
def Leads (x : Except Fault Session) : Prop :=
  ∀ s, x = .ok s → s.FollowsRun

namespace Leads

theorem pure (h : s.Follows full p) : Leads (.ok s) := by
  rintro _ ⟨⟩
  exact ⟨full, p, h⟩

theorem bind {α : Type} {x : Except Fault α} {f : α → Except Fault Session}
    (h : ∀ a, x = .ok a → Leads (f a)) : Leads (x >>= f) := by
  intro s' hs'
  obtain ⟨a, ha, hrest⟩ := ok_of_bind hs'
  exact h a ha s' hrest

theorem required {on : Option Scope} {f : Scope → Except Fault Session}
    (h : ∀ sc, on = some sc → Leads (f sc)) : Leads (Session.required on >>= f) := by
  cases on with
  | none => exact nofun
  | some sc => exact h sc rfl

/-- At the place of a step. -/
theorem place {on : Option Scope} {f : Place → Except Fault Session}
    (hon : s.world.store.Knows on)
    (h : ∀ place, s.world.store.Knows place.scope? → Leads (f place)) :
    Leads (s.placeOf on >>= f) :=
  .bind fun place hplace => h place (Follows.knows_placeOf hon hplace)

/-- With the value of an expression, after its payloads are made. -/
theorem value (h : s.Follows full p) {x : Expr} {f : Value × Session → Except Fault Session}
    (hf : ∀ v s₁ p₁, s₁.Follows full p₁ → s₁.world = s.world → s₁.world.store.Carries p₁ v →
      Leads (f (v, s₁))) : Leads (s.evaluate x >>= f) := by
  refine .bind fun ⟨v, s₁⟩ hx => ?_
  obtain ⟨p₁, h₁, hworld, hv⟩ := h.evaluate hx
  exact hf v s₁ p₁ h₁ hworld (hworld ▸ hv)

end Leads

namespace Follows

/-! ### Commands -/

theorem giveScope (h : s.Follows full p) (dest : Option String) {given : Option Scope}
    (hgiven : s.world.store.Knows given) : (s.giveScope dest given).Follows full p := by
  cases given with
  | none => exact h.reply _
  | some t => exact (h.setScope (hgiven t rfl) dest).reply _

theorem leads_dropScope (h : s.Follows full p) (on : Option Scope) (name : String) :
    Leads (s.perform on (.dropScope name)) := by
  rw [Session.perform]
  split
  · exact .pure (h.reply _)
  · rename_i sc hsc
    have hlive : ∀ t ∈ [sc], s.world.store.isLive t = true :=
      fun t ht => List.mem_singleton.mp ht ▸ h.scopes name sc hsc
    have hdropped : ({ s with scopes := s.scopes.erase name }.dropHandles [sc] []).Follows full p :=
      (h.dropScope name).dropHandles hlive (List.forall_mem_nil _)
    exact .pure (hdropped.reply _)

theorem leads_dropValue (h : s.Follows full p) (on : Option Scope) (name : String) :
    Leads (s.perform on (.dropValue name)) := by
  rw [Session.perform]
  split
  · exact .pure (h.reply _)
  · rename_i v hv
    have hcarried : ∀ u ∈ [v], s.world.store.Carries p u :=
      fun u hu => List.mem_singleton.mp hu ▸ h.values name v hv
    have hdropped : ({ s with values := s.values.erase name }.dropHandles [] [v]).Follows full p :=
      (h.dropValue name).dropHandles (List.forall_mem_nil _) hcarried
    exact .pure (hdropped.reply _)

theorem leads_fill (h : s.Follows full p) {on : Option Scope} (hon : s.world.store.Knows on)
    (name : String) (n : Nat) : Leads (s.perform on (.fill name n)) := by
  rw [Session.perform]
  split
  · exact .pure (h.reply _)
  · refine .place hon fun place hplace => ?_
    obtain ⟨full', hfilled⟩ := h.fillFrom hplace name 0 n
    exact .pure (hfilled.reply _)

theorem leads_closureChain (h : s.Follows full p) (hsc : s.world.store.isLive sc = true) (n : Nat)
    (inList : Bool) (dest : Option String) :
    Leads (s.perform (some sc) (.closureChain n inList dest)) := by
  obtain ⟨full', p', world, last, allocations, heq, hlast, hlive⟩ :=
    h.closureChainFrom hsc hsc inList n
  rw [Session.perform]
  refine .required fun t ht => ?_
  obtain rfl := Option.some.inj ht
  rw [heq]
  exact .pure (hlast.keepScope hlive dest)

theorem leads_finish (h : s.Follows full p) (on : Option Scope) :
    Leads (s.perform on .finish) := by
  refine .bind fun _ _ => .bind fun e he => ?_
  have hended := h.ended (a := .finish e) (environment_of_require he) rfl rfl rfl
  exact .pure (hended.conclude (h.part.sound.provides_perform h.closed (.finish e)) none)

theorem leads_newEnvironment (h : s.Follows full p) (on : Option Scope) (config : Config) :
    Leads (s.perform on (.newEnvironment config)) := by
  refine .bind fun _ _ => ?_
  obtain ⟨full', hnone, henv⟩ := h.discardEnvironment
  exact .pure ((hnone.beginEnvironment henv config).reply _)

/-- A command leads from a session that follows a run to another one. -/
theorem leads_perform (h : s.Follows full p) {on : Option Scope} (hon : s.world.store.Knows on)
    (c : Command) : Leads (s.perform on c) := by
  cases c with
  | newScope dest =>
      cases on with
      | none => exact .pure (h.operate (a := .newScope) rfl Store.provides_none dest)
      | some sc =>
          exact .pure (h.operate (a := .newChild (.scope sc)) rfl (Store.provides_scope hon) dest)
  | newGlobal dest => exact .pure (h.operate (a := .newScope) rfl Store.provides_none dest)
  | newGlobalWith policy dest =>
      exact .pure (h.operate (a := .newGlobal policy) rfl Store.provides_none dest)
  | child dest =>
      refine .required fun sc hsc => ?_
      subst hsc
      exact .pure (h.operate (a := .newChild (.scope sc)) rfl (Store.provides_scope hon) dest)
  | «alias» dest => exact .required fun sc hsc => .pure (h.keepScope (hon sc hsc) dest)
  | descend n dest =>
      refine .required fun sc hsc => ?_
      obtain ⟨full', hlast, hlive⟩ := h.descendFrom (hon sc hsc) n
      exact .pure (hlast.keepScope hlive dest)
  | closureChain n inList dest =>
      cases on with
      | none => exact nofun
      | some sc => exact h.leads_closureChain (hon sc rfl) n inList dest
  | parent dest =>
      refine .required fun sc _ => .pure (h.giveScope dest fun t ht => ?_)
      exact h.part.sound.store.isLive_parent? ht
  | root dest =>
      refine .required fun sc hsc => .pure (h.giveScope dest fun t ht => ?_)
      exact Option.some.inj ht ▸ h.part.sound.store.isLive_root (hon sc hsc)
  | chain | identify | describe | listing => exact .required fun _ _ => .pure (h.reply _)
  | compareScopes other => exact .required fun _ _ => .bind fun _ _ => .pure (h.reply _)
  | dropScope name => exact h.leads_dropScope on name
  | dropValue name => exact h.leads_dropValue on name
  | define n x m =>
      refine .value h fun v s₁ p₁ h₁ hworld hv => .place (hworld ▸ hon) fun place hplace => ?_
      exact .pure (h₁.operate (a := .define place n v m) rfl (Store.provides_value hplace hv) none)
  | defineGlobal n x =>
      refine .value h fun v s₁ p₁ h₁ _ hv => .bind fun e _ => ?_
      exact .pure (h₁.operate (a := .define (.global e) n v .mutable) rfl
        (Store.provides_value (.none _) hv) none)
  | assign n x =>
      refine .value h fun v s₁ p₁ h₁ hworld hv => .place (hworld ▸ hon) fun place hplace => ?_
      exact .pure (h₁.operate (a := .assign place n v) rfl (Store.provides_value hplace hv) none)
  | fill name n => exact h.leads_fill hon name n
  | get n dest =>
      refine .place hon fun place hplace => ?_
      exact .pure (h.operate (a := .get place n) rfl (Store.provides_scope hplace) dest)
  | lookup n dest =>
      refine .place hon fun place hplace => ?_
      exact .pure (h.operate (a := .lookup place n) rfl (Store.provides_scope hplace) dest)
  | contains n =>
      refine .place hon fun place hplace => ?_
      exact .pure (h.operate (a := .contains place n) rfl (Store.provides_scope hplace) none)
  | binds n =>
      refine .required fun sc hsc => ?_
      subst hsc
      exact .pure (h.operate (a := .binds (.scope sc) n) rfl (Store.provides_scope hon) none)
  | mutability n =>
      refine .required fun sc hsc => ?_
      subst hsc
      exact .pure (h.operate (a := .mutability (.scope sc) n) rfl (Store.provides_scope hon) none)
  | newEnvironment config => exact h.leads_newEnvironment on config
  | dropEnvironment =>
      refine .bind fun _ _ => ?_
      obtain ⟨full', hnone, -⟩ := h.discardEnvironment
      exact .pure (hnone.reply _)
  | finish => exact h.leads_finish on
  | state => exact .bind fun _ _ => .pure (h.reply _)
  | enterBlock =>
      exact .bind fun e _ => .pure (h.operate (a := .enterBlock e) rfl Store.provides_none none)
  | enterCall captured =>
      refine .bind fun sc hsc => .bind fun e _ => ?_
      exact .pure (h.operate (a := .enterCall e sc) rfl
        (Store.provides_scope (.some (h.isLive_scope hsc))) none)
  | leave dest =>
      exact .bind fun e _ => .pure (h.operate (a := .leave e) rfl Store.provides_none dest)
  | capture dest =>
      exact .bind fun e _ => .pure (h.operate (a := .capture e) rfl Store.provides_none dest)
  | closure name params body dest =>
      refine .bind fun e _ => ?_
      exact .pure (h.operate (a := .closure e name params body) rfl Store.provides_none dest)
  | bindValue x dest => exact .value h fun v s₁ p₁ h₁ _ hv => .pure (h₁.keepValue hv dest)
  | inspect x => exact .value h fun _ _ _ h₁ _ _ => .pure (h₁.reply _)
  | compareValues x y =>
      exact .value h fun _ _ _ h₁ _ _ => .value h₁ fun _ _ _ h₂ _ _ => .pure (h₂.reply _)
  | invalid => exact nofun

end Follows

end ScopeChain.Session
