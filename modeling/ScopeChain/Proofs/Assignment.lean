import ScopeChain.Proofs.WorldSoundness

/-!
Assignment.  The nearest binder of the name decides alone: its binding has the new value, or the
assignment is rejected because that binding is immutable.  Where there is no binder the policy of
the global scope decides.  Nothing else of the store changes, whoever looks.
-/

namespace ScopeChain.Store

/-- The stores differ in the bindings of the scope `b` alone, and their listing there is changed as
told. -/
structure ChangedAt (before after : Store) (b : Scope)
    (change : List (Name × Binding) → List (Name × Binding)) : Prop where
  others : ∀ t, t ≠ b → after.frame? t = before.frame? t
  frame : ∃ f g, before.frame? b = some f ∧ after.frame? b = some g ∧
    g.bindings.toList = change f.bindings.toList ∧ g.bindings.Faithful ∧
    g.parent = f.parent ∧ g.depth = f.depth ∧ g.policy = f.policy

/-- The listing of a scope after its binding of `n` has got the value `v`. -/
def setValue (n : Name) (v : Value) (listing : List (Name × Binding)) : List (Name × Binding) :=
  listing.map fun e => if e.1 = n then (e.1, { e.2 with value := v }) else e

/-- What becomes of an assignment of `v` to `n` from the scope `s`. -/
inductive AssignmentOutcome (st : Store) (s : Scope) (n : Name) (v : Value) :
    Store → Except Error Unit → Prop where
  | updated {b x after} : st.binder? s n = some b → (st.bindings b).find? n = some x →
      x.mutability = .mutable → ChangedAt st after b (setValue n v) →
      AssignmentOutcome st s n v after (.ok ())
  | immutable {b x} : st.binder? s n = some b → (st.bindings b).find? n = some x →
      x.mutability = .immutable → AssignmentOutcome st s n v st (.error (.immutable n))
  | undeclared : st.binder? s n = none → st.policy (st.root s) = .strict →
      AssignmentOutcome st s n v st (.error (.undeclared n))
  | created {after} : st.binder? s n = none → st.policy (st.root s) = .createGlobal →
      ChangedAt st after (st.root s) (fun listing => listing ++ [(n, ⟨v, .mutable⟩)]) →
      AssignmentOutcome st s n v after (.ok ())

/-- An assignment that fails leaves the store as it was. -/
theorem AssignmentOutcome.store_eq {st after : Store} {s : Scope} {n : Name} {v : Value}
    {result : Except Error Unit} (h : AssignmentOutcome st s n v after result)
    (hfail : result ≠ .ok ()) : after = st := by
  cases h with
  | updated => exact absurd rfl hfail
  | immutable => rfl
  | undeclared => rfl
  | created => exact absurd rfl hfail

namespace Sound

variable {st : Store} {s : Scope}

theorem changedAt_rebind (h : st.Sound) {b : Scope} (hb : st.isLive b = true)
    {change : Bindings → Bindings} {listing : List (Name × Binding) → List (Name × Binding)}
    (hlisting : (change (st.bindings b)).toList = listing (st.bindings b).toList)
    (hchange : ∀ b, b.Faithful → (change b).Faithful) :
    ChangedAt st (st.rebind b change) b listing where
  others t ht := st.frame?_rebind_of_ne change ht.symm
  frame := by
    obtain ⟨f, hf⟩ := isLive_iff.mp hb
    rw [bindings_of_frame? hf] at hlisting
    refine ⟨f, { f with bindings := change f.bindings }, hf, ?_, hlisting,
      hchange _ (h.faithful hf), rfl, rfl, rfl⟩
    rw [frame?_rebind, if_pos rfl, hf]
    rfl

/-! ### A binding with another value -/

theorem binder?_update (h : st.Sound) {b : Scope} (hb : st.isLive b = true) (n : Name) (v : Value)
    (t : Scope) (m : Name) :
    (st.rebind b fun bs => bs.assign n v).binder? t m = st.binder? t m := by
  have hsound : (st.rebind b fun bs => bs.assign n v).Sound :=
    h.rebind b fun _ hbs => hbs.assign n v
  have hbinds : (fun t => (st.rebind b fun bs => bs.assign n v).binds t m) =
      fun t => st.binds t m := by
    funext t
    rw [binds, binds, (hsound.faithful_bindings t).contains_eq_isSome_find?,
      (h.faithful_bindings t).contains_eq_isSome_find?, h.find?_update hb]
    split
    · rw [Option.isSome_map]
    · rfl
  rw [binder?, binder?, chain_rebind, hbinds]

theorem lookup_update (h : st.Sound) {b : Scope} (n : Name) (hb : st.binds b n = true) (v : Value)
    (t : Scope) (m : Name) :
    (st.rebind b fun bs => bs.assign n v).lookup t m =
      if m = n ∧ st.binder? t n = some b then some v else st.lookup t m := by
  have hlive := isLive_of_binds hb
  have hsound : (st.rebind b fun bs => bs.assign n v).Sound :=
    h.rebind b fun _ hbs => hbs.assign n v
  rw [hsound.lookup_eq, h.lookup_eq, h.binder?_update hlive]
  cases ht : st.binder? t m with
  | none =>
      have hnot : ¬(m = n ∧ st.binder? t n = some b) := by
        rintro ⟨rfl, hsome⟩
        rw [ht] at hsome
        cases hsome
      rw [if_neg hnot]
      rfl
  | some c =>
      simp only [Option.bind_some, h.find?_update hlive]
      by_cases hm : m = n
      · subst hm
        obtain ⟨x, hx⟩ := h.exists_find?_of_binds (binds_of_binder? ht)
        by_cases hc : c = b
        · subst hc
          simp [ht, hx]
        · simp [ht, hc]
      · simp [hm]

/-! ### A binding created in a global scope -/

theorem binds_bind (h : st.Sound) {r : Scope} (hr : st.isLive r = true) (n : Name) (x : Binding)
    (t : Scope) (m : Name) :
    (st.bind r n x).binds t m = (decide (t = r ∧ m = n) || st.binds t m) := by
  rw [binds, binds, ((h.bind r n x).faithful_bindings t).contains_eq_isSome_find?,
    (h.faithful_bindings t).contains_eq_isSome_find?, h.find?_bind hr]
  split
  · rename_i hand
    simp [hand]
  · rename_i hand
    simp [hand]

/-- A name bound in a global scope is found there by the scopes of its tree that found none. -/
theorem binder?_bind_root (h : st.Sound) {r : Scope} (hr : st.isLive r = true)
    (hroot : st.parent? r = none) (n : Name) (x : Binding) (t : Scope) (m : Name) :
    (st.bind r n x).binder? t m =
      (st.binder? t m).or (if m = n ∧ st.root t = r then some r else none) := by
  have hsound := h.bind r n x
  induction t using h.chain_induction with
  | global t hp =>
      rw [hsound.binder?_eq t m, h.binder?_eq t m, h.root_eq t, parent?_bind, hp,
        h.binds_bind hr n x t m]
      cases hb : st.binds t m with
      | true => simp
      | false =>
          by_cases ht : t = r <;> by_cases hm : m = n <;> simp [ht, hm]
  | inside t p hp ih =>
      have ht : t ≠ r := by
        rintro rfl
        rw [hroot] at hp
        cases hp
      rw [hsound.binder?_eq t m, h.binder?_eq t m, h.root_eq t, parent?_bind, hp,
        h.binds_bind hr n x t m]
      cases hb : st.binds t m with
      | true => simp
      | false => simpa [ht] using ih

theorem lookup_bind_root (h : st.Sound) {r : Scope} (hr : st.isLive r = true)
    (hroot : st.parent? r = none) {n : Name} (hfree : st.binds r n = false) (x : Binding)
    (t : Scope) (m : Name) :
    (st.bind r n x).lookup t m =
      if m = n ∧ (st.bind r n x).binder? t n = some r then some x.value else st.lookup t m := by
  rw [(h.bind r n x).lookup_eq, h.lookup_eq]
  by_cases hm : m = n
  · subst hm
    rw [h.binder?_bind_root hr hroot]
    cases ht : st.binder? t m with
    | none =>
        by_cases hrt : st.root t = r <;> simp [hrt, h.find?_bind hr]
    | some c =>
        have hc : c ≠ r := by
          rintro rfl
          rw [binds_of_binder? ht] at hfree
          cases hfree
        simp [hc, h.find?_bind hr]
  · simp [hm, h.binder?_bind_root hr hroot, h.find?_bind hr]

end Sound

end ScopeChain.Store

namespace ScopeChain.World

open Store

namespace Sound

variable {w : World} {s : Scope}

theorem assign_outcome (h : w.Sound) (hs : w.store.isLive s = true) (n : Name) (v : Value) :
    AssignmentOutcome w.store s n v (w.assign s n v).1.store (w.assign s n v).2 := by
  have hassign := h.store.assign_eq s n v
  rw [(w.assign_fst s n v).1, w.assign_snd, hassign]
  cases hb : w.store.binder? s n with
  | some b =>
      obtain ⟨x, hx⟩ := h.store.exists_find?_of_binds (binds_of_binder? hb)
      simp only [hx, Option.any_some]
      cases hm : x.mutability with
      | mutable =>
          exact .updated hb hx hm (h.store.changedAt_rebind
            (isLive_of_binds (binds_of_binder? hb))
            ((h.store.faithful_bindings b).toList_assign n v) fun _ hbs => hbs.assign n v)
      | immutable => exact .immutable hb hx hm
  | none =>
      have hfree := h.store.binds_root_eq_false hb
      cases hp : w.store.policy (w.store.root s) with
      | createGlobal =>
          exact .created hb hp (h.store.changedAt_rebind (h.store.isLive_root hs)
            ((h.store.faithful_bindings _).toList_insert_of_not_contains hfree ⟨v, .mutable⟩)
            fun _ hbs => hbs.insert n ⟨v, .mutable⟩)
      | strict => exact .undeclared hb hp

/-- After an assignment that succeeds the name resolves, and wherever it resolves to that same scope
the new value is found; all else is found as before. -/
theorem lookup_assign (h : w.Sound) (hs : w.store.isLive s = true) {n : Name} {v : Value}
    (hok : (w.assign s n v).2 = .ok ()) :
    ∃ b, (w.assign s n v).1.store.binder? s n = some b ∧
      ∀ t m, (w.assign s n v).1.store.lookup t m =
        if m = n ∧ (w.assign s n v).1.store.binder? t n = some b then some v
        else w.store.lookup t m := by
  rw [w.assign_snd] at hok
  rw [(w.assign_fst s n v).1]
  have hassign := h.store.assign_eq s n v
  cases hb : w.store.binder? s n with
  | some b =>
      have hbinds := binds_of_binder? hb
      have hlive := isLive_of_binds hbinds
      simp only [hb] at hassign
      split at hassign
      · rw [hassign]
        refine ⟨b, (h.store.binder?_update hlive n v s n).trans hb, fun t m => ?_⟩
        rw [h.store.lookup_update n hbinds, h.store.binder?_update hlive]
      · rw [hassign] at hok
        cases hok
  | none =>
      have hlive := h.store.isLive_root hs
      have hroot := h.store.parent?_root s
      simp only [hb] at hassign
      split at hassign
      · rw [hassign]
        refine ⟨w.store.root s, ?_, h.store.lookup_bind_root hlive hroot
          (h.store.binds_root_eq_false hb) ⟨v, .mutable⟩⟩
        rw [h.store.binder?_bind_root hlive hroot, hb]
        simp
      · rw [hassign] at hok
        cases hok

end Sound

/-- An assignment is decided by the nearest binder of the name alone. -/
theorem assign_decided_by_nearest_binder (actions : List Action) {s : Scope} (n : Name) (v : Value)
    (hs : (World.empty.performAll actions).1.store.isLive s = true) :
    let w := (World.empty.performAll actions).1
    let after := (w.assign s n v).1
    let result := (w.assign s n v).2
    AssignmentOutcome w.store s n v after.store result ∧
      after.environments = w.environments ∧
      (result = .ok () → (after.get s n).2 = .ok v) ∧
      ∀ t m, after.store.lookup t m ≠ w.store.lookup t m →
        m = n ∧ result = .ok () ∧ after.store.lookup t m = some v ∧
          ∃ b, after.store.binder? s n = some b ∧ after.store.binder? t n = some b := by
  intro w after result
  have h : w.Sound := sound_of_run actions
  refine ⟨h.assign_outcome hs n v, (w.assign_fst s n v).2, ?_, ?_⟩
  · intro hok
    obtain ⟨b, hb, hlookup⟩ := h.lookup_assign hs hok
    have hfound : after.store.lookup s n = some v := by
      rw [hlookup, if_pos ⟨rfl, hb⟩]
    rw [get_of_lookup hfound]
  · intro t m hne
    by_cases hok : result = .ok ()
    · obtain ⟨b, hb, hlookup⟩ := h.lookup_assign hs hok
      rw [hlookup] at hne ⊢
      split at hne
      · rename_i hand
        rw [if_pos hand]
        exact ⟨hand.1, hok, rfl, b, hb, hand.2⟩
      · exact absurd rfl hne
    · have hsame : after.store = w.store := (h.assign_outcome hs n v).store_eq hok
      exact absurd (by rw [hsame]) hne

/-- A run in which a block assigns to a variable of its global scope. -/
theorem assign_from_block :
    let w := (World.empty.performAll [.newGlobal .strict, .newChild (.scope ⟨0⟩),
      .define (.scope ⟨0⟩) ⟨"x"⟩ .void .mutable]).1
    w.store.isLive ⟨1⟩ = true ∧ (w.assign ⟨1⟩ ⟨"x"⟩ (.bool true)).2 = .ok () ∧
      ((w.assign ⟨1⟩ ⟨"x"⟩ (.bool true)).1.get ⟨1⟩ ⟨"x"⟩).2 = .ok (.bool true) := by
  intro w
  have hok : (w.assign ⟨1⟩ ⟨"x"⟩ (.bool true)).2 = .ok () := by decide
  exact ⟨rfl, hok, (assign_decided_by_nearest_binder _ ⟨"x"⟩ (.bool true) rfl).2.2.1 hok⟩

end ScopeChain.World
