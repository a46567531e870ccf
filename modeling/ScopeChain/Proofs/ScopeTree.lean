import ScopeChain.Proofs.InsertionOrder
import ScopeChain.Store.Chain

/-!
The store as a forest of scopes.  Every link leads to an older scope that is there, so each chain
ends at a global scope, and a walk outwards is an induction along the links.  The walks of the store
run on fuel; here each of them is shown to follow the links to the end.
-/

namespace ScopeChain.Store

/-- The bindings of every scope are faithful, and every scope is a global one of depth zero or
stands inside an older scope, one deeper and under the same policy. -/
structure Sound (st : Store) : Prop where
  faithful : ∀ {s f}, st.frame? s = some f → f.bindings.Faithful
  global : ∀ {s f}, st.frame? s = some f → f.parent = none → f.depth = 0
  inside : ∀ {s f p}, st.frame? s = some f → f.parent = some p →
    p.index < s.index ∧ ∃ g, st.frame? p = some g ∧
      f.depth = min (g.depth + 1) greatestDepth ∧ f.policy = g.policy

theorem sound_empty : Store.empty.Sound where
  faithful h := by cases h
  global h := by cases h
  inside h := by cases h

/-! ### Scopes that are not in the store -/

theorem index_lt_of_frame? {st : Store} {s : Scope} {f : Frame} (h : st.frame? s = some f) :
    s.index < st.frames.size := by
  unfold frame? at h
  by_contra hge
  rw [Array.getElem?_eq_none (by omega)] at h
  cases h

theorem isLive_iff {st : Store} {s : Scope} :
    st.isLive s = true ↔ ∃ f, st.frame? s = some f :=
  Option.isSome_iff_exists

@[simp] theorem bindings_of_frame? {st : Store} {s : Scope} {f : Frame} (h : st.frame? s = some f) :
    st.bindings s = f.bindings := by
  simp [bindings, h]

@[simp] theorem bindings_of_absent {st : Store} {s : Scope} (h : st.frame? s = none) :
    st.bindings s = .empty := by
  simp [bindings, h]

theorem exists_frame?_of_parent? {st : Store} {s p : Scope} (h : st.parent? s = some p) :
    ∃ f, st.frame? s = some f ∧ f.parent = some p := by
  simpa [parent?, Option.bind_eq_some_iff] using h

namespace Sound

variable {st : Store}

theorem faithful_bindings (h : st.Sound) (s : Scope) : (st.bindings s).Faithful := by
  cases hf : st.frame? s with
  | none =>
      rw [bindings_of_absent hf]
      exact Bindings.faithful_empty
  | some f =>
      rw [bindings_of_frame? hf]
      exact h.faithful hf

theorem parent?_index_lt (h : st.Sound) {s p : Scope} (hp : st.parent? s = some p) :
    p.index < s.index := by
  obtain ⟨f, hf, hfp⟩ := exists_frame?_of_parent? hp
  exact (h.inside hf hfp).1

theorem isLive_parent? (h : st.Sound) {s p : Scope} (hp : st.parent? s = some p) :
    st.isLive p = true := by
  obtain ⟨f, hf, hfp⟩ := exists_frame?_of_parent? hp
  obtain ⟨-, g, hg, -⟩ := h.inside hf hfp
  exact isLive_iff.mpr ⟨g, hg⟩

/-- Induction along the links: what holds of the global scopes and passes from a scope to those
inside it holds of every scope. -/
theorem chain_induction (h : st.Sound) {motive : Scope → Prop}
    (global : ∀ s, st.parent? s = none → motive s)
    (inside : ∀ s p, st.parent? s = some p → motive p → motive s) (s : Scope) : motive s := by
  obtain ⟨i⟩ := s
  induction i using Nat.strongRecOn with
  | ind i ih =>
      cases hp : st.parent? ⟨i⟩ with
      | none => exact global _ hp
      | some p => exact inside _ p hp (ih p.index (h.parent?_index_lt hp))

/-! ### The walks -/

/-- A walk that takes one unit of fuel for each link has enough of it when it starts with one unit
more than the scope's index. -/
theorem walk_eq (h : st.Sound) {β : Type} (walk : Nat → Scope → β) (next : Scope → β → β)
    (last : Scope → β)
    (hwalk : ∀ fuel s, walk (fuel + 1) s = match st.parent? s with
      | some p => next s (walk fuel p)
      | none => last s) (s : Scope) :
    walk (s.index + 1) s = match st.parent? s with
      | some p => next s (walk (p.index + 1) p)
      | none => last s := by
  have hfuel : ∀ fuel fuel' s, s.index < fuel → s.index < fuel' → walk fuel s = walk fuel' s := by
    intro fuel
    induction fuel with
    | zero =>
        intro fuel' s hs
        omega
    | succ fuel ih =>
        intro fuel' s hs hs'
        obtain ⟨fuel', rfl⟩ := Nat.exists_eq_succ_of_ne_zero (Nat.ne_zero_of_lt hs')
        rw [hwalk, hwalk]
        cases hp : st.parent? s with
        | none => rfl
        | some p =>
            have hlt := h.parent?_index_lt hp
            simp only [ih fuel' p (by omega) (by omega)]
  rw [hwalk]
  cases hp : st.parent? s with
  | none => rfl
  | some p =>
      have hlt := h.parent?_index_lt hp
      simp only [hfuel s.index (p.index + 1) p hlt (by omega)]

/-- The chain begins with the scope and goes on with the chain of the scope around it. -/
theorem chain_eq (h : st.Sound) (s : Scope) :
    st.chain s = match st.parent? s with
      | some p => s :: st.chain p
      | none => [s] :=
  h.walk_eq (fun fuel s => (st.chainFrom fuel s #[]).toList) (fun s rest => s :: rest)
    (fun s => [s]) st.toList_chainFrom_succ s

/-- The global scope of a chain is the one that nothing is around. -/
theorem root_eq (h : st.Sound) (s : Scope) :
    st.root s = match st.parent? s with
      | some p => st.root p
      | none => s :=
  h.walk_eq st.rootFrom (fun _ r => r) id (fun _ _ => rfl) s

end Sound

/-- Stores with the same links have the same chains. -/
theorem chain_congr {st st' : Store} (h : ∀ t, st'.parent? t = st.parent? t) (s : Scope) :
    st'.chain s = st.chain s := by
  have hfuel : ∀ fuel s inner, st'.chainFrom fuel s inner = st.chainFrom fuel s inner := by
    intro fuel
    induction fuel with
    | zero => exact fun _ _ => rfl
    | succ fuel ih =>
        intro s inner
        simp only [chainFrom, h, ih]
  rw [chain, chain, hfuel]

/-! ### Changing the bindings of one scope -/

/-- Change the bindings of one scope and nothing else. -/
def rebind (st : Store) (s : Scope) (change : Bindings → Bindings) : Store :=
  st.update s fun f => { f with bindings := change f.bindings }

theorem bind_eq_rebind (st : Store) (s : Scope) (n : Name) (x : Binding) :
    st.bind s n x = st.rebind s fun b => b.insert n x := rfl

theorem clear_eq_rebind (st : Store) (s : Scope) : st.clear s = st.rebind s fun _ => .empty := rfl

section rebind

variable (st : Store) (s t : Scope) (change : Bindings → Bindings)

theorem frame?_rebind : (st.rebind s change).frame? t =
    if s = t then (st.frame? t).map fun f => { f with bindings := change f.bindings }
    else st.frame? t :=
  st.frame?_update s t _

theorem frame?_rebind_of_ne {s t : Scope} (hst : s ≠ t) :
    (st.rebind s change).frame? t = st.frame? t := by
  rw [frame?_rebind, if_neg hst]

theorem bindings_rebind_of_ne {s t : Scope} (hst : s ≠ t) :
    (st.rebind s change).bindings t = st.bindings t := by
  simp only [bindings, frame?_rebind_of_ne st change hst]

theorem bindings_rebind_self {s : Scope} (hs : st.isLive s = true) :
    (st.rebind s change).bindings s = change (st.bindings s) := by
  obtain ⟨f, hf⟩ := isLive_iff.mp hs
  simp [bindings, frame?_rebind, hf]

@[simp] theorem isLive_rebind : (st.rebind s change).isLive t = st.isLive t := by
  rw [isLive, frame?_rebind]
  split
  · simp [isLive]
  · rfl

@[simp] theorem parent?_rebind : (st.rebind s change).parent? t = st.parent? t := by
  rw [parent?, parent?, frame?_rebind]
  split
  · cases st.frame? t <;> rfl
  · rfl

@[simp] theorem chain_rebind : (st.rebind s change).chain t = st.chain t :=
  chain_congr (st.parent?_rebind s · change) t

@[simp] theorem parent?_bind (n : Name) (x : Binding) :
    (st.bind s n x).parent? t = st.parent? t := by
  rw [bind_eq_rebind, parent?_rebind]

end rebind

theorem bindings_add (st : Store) {f : Frame} (hempty : f.bindings = .empty) (s : Scope) :
    (st.add f).1.bindings s = st.bindings s := by
  by_cases hs : s = st.next
  · subst hs
    rw [bindings_of_absent st.frame?_next]
    simp [bindings, frame?_add, hempty]
  · simp [bindings, frame?_add, hs]

theorem bindings_clear (st : Store) (s t : Scope) :
    (st.clear s).bindings t = if s = t then .empty else st.bindings t := by
  by_cases hst : s = t
  · subst hst
    rw [if_pos rfl, clear_eq_rebind]
    cases hf : st.frame? s with
    | none => simp [bindings, frame?_rebind, hf]
    | some f => simp [bindings, frame?_rebind, hf]
  · rw [if_neg hst, clear_eq_rebind, bindings_rebind_of_ne st _ hst]

/-- A frame after a change of bindings is a frame from before with the same link, depth and policy.
-/
theorem exists_frame?_of_rebind {st : Store} {s t : Scope} {change : Bindings → Bindings}
    {f : Frame} (hf : (st.rebind s change).frame? t = some f) :
    ∃ g, st.frame? t = some g ∧ g.parent = f.parent ∧ g.depth = f.depth ∧ g.policy = f.policy ∧
      (f.bindings = g.bindings ∨ f.bindings = change g.bindings) := by
  rw [frame?_rebind] at hf
  split at hf
  · obtain ⟨g, hg, rfl⟩ := Option.map_eq_some_iff.mp hf
    exact ⟨g, hg, rfl, rfl, rfl, .inr rfl⟩
  · exact ⟨f, hf, rfl, rfl, rfl, .inl rfl⟩

theorem exists_frame?_rebind {st : Store} {t : Scope} {g : Frame} (s : Scope)
    (change : Bindings → Bindings) (hg : st.frame? t = some g) :
    ∃ f, (st.rebind s change).frame? t = some f ∧ f.depth = g.depth ∧ f.policy = g.policy := by
  rw [frame?_rebind, hg]
  split
  · exact ⟨_, rfl, rfl, rfl⟩
  · exact ⟨g, rfl, rfl, rfl⟩

namespace Sound

variable {st : Store}

theorem rebind (h : st.Sound) (s : Scope) {change : Bindings → Bindings}
    (hchange : ∀ b, b.Faithful → (change b).Faithful) : (st.rebind s change).Sound where
  faithful hf := by
    obtain ⟨g, hg, -, -, -, heq | heq⟩ := exists_frame?_of_rebind hf
    · rw [heq]
      exact h.faithful hg
    · rw [heq]
      exact hchange _ (h.faithful hg)
  global hf hp := by
    obtain ⟨g, hg, hparent, hdepth, -⟩ := exists_frame?_of_rebind hf
    rw [← hdepth]
    exact h.global hg (hparent.trans hp)
  inside hf hp := by
    obtain ⟨g, hg, hparent, hdepth, hpolicy, -⟩ := exists_frame?_of_rebind hf
    obtain ⟨hlt, k, hk, hkd, hkp⟩ := h.inside hg (hparent.trans hp)
    obtain ⟨k', hk', hkd', hkp'⟩ := exists_frame?_rebind s change hk
    exact ⟨hlt, k', hk', by rw [← hdepth, hkd, hkd'], by rw [← hpolicy, hkp, hkp']⟩

theorem bind (h : st.Sound) (s : Scope) (n : Name) (x : Binding) : (st.bind s n x).Sound :=
  h.rebind s fun _ hb => hb.insert n x

theorem clear (h : st.Sound) (s : Scope) : (st.clear s).Sound :=
  h.rebind s fun _ _ => Bindings.faithful_empty

theorem find?_bind (h : st.Sound) {r : Scope} (hr : st.isLive r = true) (n : Name) (x : Binding)
    (t : Scope) (m : Name) :
    ((st.bind r n x).bindings t).find? m =
      if t = r ∧ m = n then some x else (st.bindings t).find? m := by
  rw [bind_eq_rebind]
  by_cases ht : t = r
  · subst ht
    rw [bindings_rebind_self st _ hr, (h.faithful_bindings t).find?_insert]
    simp
  · rw [bindings_rebind_of_ne st _ (Ne.symm ht), if_neg fun hand => ht hand.1]

theorem find?_update (h : st.Sound) {b : Scope} (hb : st.isLive b = true) (n : Name) (v : Value)
    (t : Scope) (m : Name) :
    ((st.rebind b fun bs => bs.assign n v).bindings t).find? m =
      if t = b ∧ m = n then ((st.bindings t).find? m).map fun x => { x with value := v }
      else (st.bindings t).find? m := by
  by_cases ht : t = b
  · subst ht
    rw [bindings_rebind_self st _ hb, (h.faithful_bindings t).find?_assign]
    simp
  · rw [bindings_rebind_of_ne st _ (Ne.symm ht), if_neg fun hand => ht hand.1]

/-! ### Creating scopes -/

theorem add (h : st.Sound) {f : Frame} (hempty : f.bindings = .empty)
    (hglobal : f.parent = none → f.depth = 0)
    (hinside : ∀ p, f.parent = some p → ∃ g, st.frame? p = some g ∧
      f.depth = min (g.depth + 1) greatestDepth ∧ f.policy = g.policy) :
    (st.add f).1.Sound := by
  have hold : ∀ {p g}, st.frame? p = some g → (st.add f).1.frame? p = some g := by
    intro p g hg
    have hne : p ≠ st.next := by
      rintro rfl
      rw [frame?_next] at hg
      cases hg
    rw [frame?_add, if_neg hne, hg]
  constructor
  · intro s g hg
    rw [frame?_add] at hg
    split at hg
    · obtain rfl := Option.some.inj hg
      rw [hempty]
      exact Bindings.faithful_empty
    · exact h.faithful hg
  · intro s g hg hp
    rw [frame?_add] at hg
    split at hg
    · obtain rfl := Option.some.inj hg
      exact hglobal hp
    · exact h.global hg hp
  · intro s g p hg hp
    rw [frame?_add] at hg
    split at hg
    · rename_i hs
      obtain rfl := Option.some.inj hg
      obtain ⟨k, hk, hrest⟩ := hinside p hp
      subst hs
      exact ⟨index_lt_of_frame? hk, k, hold hk, hrest⟩
    · obtain ⟨hlt, k, hk, hrest⟩ := h.inside hg hp
      exact ⟨hlt, k, hold hk, hrest⟩

theorem add_global (h : st.Sound) (policy : Policy) : (st.add (.global policy)).1.Sound :=
  h.add rfl (fun _ => rfl) (fun _ hp => absurd hp (Option.some_ne_none _).symm)

theorem add_inside (h : st.Sound) {s : Scope} {g : Frame} (hg : st.frame? s = some g) :
    (st.add (g.inside s)).1.Sound := by
  apply h.add rfl
  · intro hp
    cases hp
  · intro p hp
    obtain rfl := Option.some.inj hp
    exact ⟨g, hg, rfl, rfl⟩

end Sound

end ScopeChain.Store
