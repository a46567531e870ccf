import ScopeChain.Proofs.Assignment

/-!
Who sees a definition.  A name defined in a scope is found there from every scope whose chain leads to
it without meeting the name before.  From everywhere else, and for every other name, what is found
stays what it was.
-/

namespace ScopeChain.Store

/-- The scope `s` is on the chain of `t`, and no scope nearer to `t` binds the name. -/
def SeenFrom (st : Store) (s t : Scope) (n : Name) : Prop :=
  ∃ nearer further, st.chain t = nearer ++ s :: further ∧ ∀ b ∈ nearer, st.binds b n = false

/-- The listing of a scope after the name `n` is defined in it. -/
def defineName (n : Name) (x : Binding) (listing : List (Name × Binding)) :
    List (Name × Binding) :=
  if n ∈ listing.map Prod.fst then listing.map fun e => if e.1 = n then (e.1, x) else e
  else listing ++ [(n, x)]

variable {st : Store} {s t : Scope} {n m : Name}

theorem seenFrom_of_binder? (hb : st.binder? t n = some s) : st.SeenFrom s t n := by
  obtain ⟨-, nearer, further, hchain, hnearer⟩ := List.find?_eq_some_iff_append.mp hb
  exact ⟨nearer, further, hchain, fun b hmem => by simpa using hnearer b hmem⟩

namespace Sound

theorem toList_insert (h : st.Sound) (s : Scope) (n : Name) (x : Binding) :
    ((st.bindings s).insert n x).toList = defineName n x (st.bindings s).toList := by
  have hb := h.faithful_bindings s
  have hmem : (st.bindings s).contains n = true ↔ n ∈ (st.bindings s).toList.map Prod.fst :=
    hb.contains_iff_mem_names
  unfold defineName
  split
  · rename_i hbound
    exact hb.toList_insert_of_contains (hmem.mpr hbound) x
  · rename_i hfree
    exact hb.toList_insert_of_not_contains (Bool.eq_false_iff.mpr fun hn => hfree (hmem.mp hn)) x

theorem names_bind (h : st.Sound) (hs : st.isLive s = true) (n : Name) (x : Binding) :
    (st.bind s n x).names s = if st.binds s n then st.names s else st.names s ++ [n] := by
  have hb := h.faithful_bindings s
  rw [names, bind_eq_rebind, bindings_rebind_self st _ hs, hb.names_insert]
  refine if_congr ?_ rfl rfl
  exact hb.contains_iff_mem_names.symm

/-! ### The nearest binder after a definition -/

theorem binder?_bind_of_seen (h : st.Sound) (hs : st.isLive s = true) (hseen : st.SeenFrom s t n)
    (x : Binding) : (st.bind s n x).binder? t n = some s := by
  obtain ⟨nearer, further, hchain, hnearer⟩ := hseen
  rw [binder?, bind_eq_rebind, chain_rebind, ← bind_eq_rebind, hchain, List.find?_append]
  have hself : (st.bind s n x).binds s n = true := by simp [h.binds_bind hs]
  cases hfound : nearer.find? fun b => (st.bind s n x).binds b n with
  | none => simp [hself]
  | some b =>
      -- What the definition made a binder among the nearer scopes can only be the scope itself.
      have hbinds : (st.bind s n x).binds b n = true := by simpa using List.find?_some hfound
      rw [h.binds_bind hs, hnearer b (List.mem_of_find?_eq_some hfound)] at hbinds
      have hbs : b = s := by simpa using hbinds
      rw [hbs]
      rfl

theorem binder?_bind_of_not_seen (h : st.Sound) (hs : st.isLive s = true) (x : Binding)
    (hnot : ¬(m = n ∧ st.SeenFrom s t n)) : (st.bind s n x).binder? t m = st.binder? t m := by
  have hbinds : ∀ b, (st.bind s n x).binds b m = (decide (b = s ∧ m = n) || st.binds b m) :=
    fun b => h.binds_bind hs n x b m
  have hchain : (st.bind s n x).chain t = st.chain t := by rw [bind_eq_rebind, chain_rebind]
  cases hafter : (st.bind s n x).binder? t m with
  | none =>
      rw [binder?, hchain, List.find?_eq_none] at hafter
      symm
      rw [binder?, List.find?_eq_none]
      intro b hb hbound
      exact hafter b hb (by simp [hbinds, hbound])
  | some b =>
      rw [binder?, hchain, List.find?_eq_some_iff_append] at hafter
      obtain ⟨hb, nearer, further, hsplit, hnearer⟩ := hafter
      have hfree : ∀ c ∈ nearer, st.binds c m = false := by
        intro c hc
        have hunbound := hnearer c hc
        rw [hbinds] at hunbound
        simp_all
      have hbefore : st.binds b m = true := by
        by_contra hne
        have hdefined : b = s ∧ m = n := by simpa [hbinds, hne] using hb
        obtain ⟨rfl, rfl⟩ := hdefined
        exact hnot ⟨rfl, nearer, further, hsplit, hfree⟩
      symm
      rw [binder?, List.find?_eq_some_iff_append]
      exact ⟨hbefore, nearer, further, hsplit, fun c hc => by simp [hfree c hc]⟩

/-! ### What is found after a definition -/

theorem found_bind_of_seen (h : st.Sound) (hs : st.isLive s = true) (hseen : st.SeenFrom s t n)
    (x : Binding) {α : Type} (part : Binding → α) :
    (((st.bind s n x).binder? t n).bind fun b =>
      (((st.bind s n x).bindings b).find? n).map part) = some (part x) := by
  rw [h.binder?_bind_of_seen hs hseen, Option.bind_some, h.find?_bind hs, if_pos ⟨rfl, rfl⟩]
  rfl

theorem found_bind_of_not_seen (h : st.Sound) (hs : st.isLive s = true) (x : Binding)
    (hnot : ¬(m = n ∧ st.SeenFrom s t n)) {α : Type} (part : Binding → α) :
    (((st.bind s n x).binder? t m).bind fun b =>
      (((st.bind s n x).bindings b).find? m).map part) =
      (st.binder? t m).bind fun b => ((st.bindings b).find? m).map part := by
  rw [h.binder?_bind_of_not_seen hs x hnot]
  cases hb : st.binder? t m with
  | none => rfl
  | some b =>
      have hother : ¬(b = s ∧ m = n) := by
        rintro ⟨rfl, rfl⟩
        exact hnot ⟨rfl, seenFrom_of_binder? hb⟩
      rw [Option.bind_some, Option.bind_some, h.find?_bind hs, if_neg hother]

end Sound

end ScopeChain.Store

namespace ScopeChain.World

/-- A definition is seen from every scope whose chain leads to it without meeting the name before.
Everyone else finds what was found before, and nothing else of the store changes: the scope itself
lists the name where it was, or at the end when it is new. -/
theorem definition_seen_below (actions : List Action) {place : Place} {s : Scope} (n : Name)
    (v : Value) (q : Mutability)
    (hs : (World.empty.performAll actions).1.scopeAt? place = some s) :
    let w := (World.empty.performAll actions).1
    let after := (w.perform (.define place n v q)).1
    (w.perform (.define place n v q)).2 = .done ∧ after.environments = w.environments ∧
      (∀ t m,
        (m = n ∧ w.store.SeenFrom s t n →
          after.store.lookup t m = some v ∧ after.store.mutability? t m = some q) ∧
        (¬(m = n ∧ w.store.SeenFrom s t n) →
          after.store.lookup t m = w.store.lookup t m ∧
            after.store.mutability? t m = w.store.mutability? t m)) ∧
      w.store.ChangedAt after.store s (Store.defineName n ⟨v, q⟩) ∧
      after.store.names s =
        if w.store.binds s n then w.store.names s else w.store.names s ++ [n] := by
  intro w after
  have h : w.Sound := sound_of_run actions
  have hlive : w.store.isLive s = true := h.isLive_scopeAt? hs
  have hperform : w.perform (.define place n v q) = (w.define s n v q, .done) := by
    simp only [perform, performAt, w, hs]
  have hafter : after = w.define s n v q := congrArg Prod.fst hperform
  have hstore : after.store = w.store.bind s n ⟨v, q⟩ := by rw [hafter, define]
  have hsound : (w.store.bind s n ⟨v, q⟩).Sound := h.store.bind s n ⟨v, q⟩
  refine ⟨by rw [hperform], by rw [hafter, define], fun t m => ⟨?_, fun hnot => ?_⟩, ?_, ?_⟩
  · rintro ⟨rfl, hseen⟩
    rw [hstore, hsound.lookup_eq, hsound.mutability?_eq]
    exact ⟨h.store.found_bind_of_seen hlive hseen _ _, h.store.found_bind_of_seen hlive hseen _ _⟩
  · rw [hstore, hsound.lookup_eq, hsound.mutability?_eq, h.store.lookup_eq, h.store.mutability?_eq]
    exact ⟨h.store.found_bind_of_not_seen hlive _ hnot _,
      h.store.found_bind_of_not_seen hlive _ hnot _⟩
  · rw [hstore]
    exact h.store.changedAt_rebind hlive (h.store.toList_insert s n ⟨v, q⟩) fun _ hb =>
      hb.insert n ⟨v, q⟩
  · rw [hstore]
    exact h.store.names_bind hlive n ⟨v, q⟩

/-- A definition in a global scope reaches a block but not the block inside it that has the name. -/
theorem definition_seen_from_block :
    let w := (World.empty.performAll [.newEnvironment {}, .enterBlock ⟨0⟩, .enterBlock ⟨0⟩,
      .define (.current ⟨0⟩) ⟨"x"⟩ .void .mutable]).1
    let after := (w.perform (.define (.global ⟨0⟩) ⟨"x"⟩ (.bool true) .immutable)).1
    w.scopeAt? (.global ⟨0⟩) = some ⟨0⟩ ∧ after.store.lookup ⟨1⟩ ⟨"x"⟩ = some (.bool true) ∧
      after.store.mutability? ⟨1⟩ ⟨"x"⟩ = some .immutable ∧
      after.store.lookup ⟨2⟩ ⟨"x"⟩ = w.store.lookup ⟨2⟩ ⟨"x"⟩ := by
  intro w after
  have hglobal : w.scopeAt? (.global ⟨0⟩) = some ⟨0⟩ := rfl
  obtain ⟨-, -, hfound, -, -⟩ :=
    definition_seen_below _ ⟨"x"⟩ (.bool true) .immutable hglobal
  have hseen : w.store.SeenFrom ⟨0⟩ ⟨1⟩ ⟨"x"⟩ :=
    ⟨[⟨1⟩], [], by decide, by decide⟩
  have hshadowed : ¬w.store.SeenFrom ⟨0⟩ ⟨2⟩ ⟨"x"⟩ := by
    rintro ⟨nearer, further, hchain, hnearer⟩
    have hthree : w.store.chain ⟨2⟩ = [⟨2⟩, ⟨1⟩, ⟨0⟩] := by decide
    rw [hthree] at hchain
    cases nearer with
    | nil => cases hchain
    | cons b nearer =>
        obtain rfl := (List.cons.inj hchain).1
        exact absurd (hnearer ⟨2⟩ List.mem_cons_self) (by decide)
  obtain ⟨hvalue, hmutability⟩ := (hfound ⟨1⟩ ⟨"x"⟩).1 ⟨rfl, hseen⟩
  have hkept := (hfound ⟨2⟩ ⟨"x"⟩).2 fun hand => hshadowed hand.2
  exact ⟨hglobal, hvalue, hmutability, hkept.1⟩

end ScopeChain.World
