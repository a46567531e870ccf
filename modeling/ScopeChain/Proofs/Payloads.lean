import ScopeChain.Proofs.Handles

/-!
Payloads of lists.  A list shares its payload with its copies, and all of them show the same items.
A value fits when every list in it does, and when every closure in it captured a scope of some kind,
such as one that is there.
-/

namespace ScopeChain

/-- The payloads that were made, with the items in each of them. -/
structure Payloads where
  count : Nat
  items : Allocation → List Value

/-- Every closure in the value captured such a scope, and every list in it shows the items of its
payload. -/
inductive Value.Fits (live : Scope → Prop) (p : Payloads) : Value → Prop
  | plain {v : Value} (nothing : v.held = .nothing) : Fits live p v
  | function {f : Closure} (captured : live f.captured) : Fits live p (.function f)
  | list {a : Allocation} {vs : List Value} (made : a.index < p.count) (same : p.items a = vs)
      (each : ∀ v ∈ vs, Fits live p v) : Fits live p (.list a vs)

namespace Payloads

variable {p p' p'' : Payloads} {live live' : Scope → Prop} {v : Value} {vs : List Value}

/-- Payloads made later leave those that were there. -/
structure Extends (p p' : Payloads) : Prop where
  count_le : p.count ≤ p'.count
  items_eq : ∀ a, a.index < p.count → p'.items a = p.items a

theorem Extends.refl (p : Payloads) : p.Extends p :=
  ⟨Nat.le_refl _, fun _ _ => rfl⟩

theorem Extends.trans (h : p.Extends p') (h' : p'.Extends p'') : p.Extends p'' where
  count_le := Nat.le_trans h.count_le h'.count_le
  items_eq a ha := (h'.items_eq a (Nat.lt_of_lt_of_le ha h.count_le)).trans (h.items_eq a ha)

/-- The items in payloads fit in turn, whatever scopes their closures captured. -/
def Consistent (p : Payloads) : Prop :=
  ∀ a, ∀ v ∈ p.items a, v.Fits (fun _ => True) p

theorem fits_mono (h : v.Fits live p) (hlive : ∀ s, live s → live' s) (hp : p.Extends p') :
    v.Fits live' p' := by
  induction h with
  | plain nothing => exact .plain nothing
  | function captured => exact .function (hlive _ captured)
  | @list a vs made same _ ih =>
      exact .list (Nat.lt_of_lt_of_le made hp.count_le) ((hp.items_eq a made).trans same) ih

theorem agrees_of_fits (h : v.Fits live p) : v.held.Agrees p.items := by
  cases h with
  | plain nothing =>
      rw [nothing]
      trivial
  | function captured => trivial
  | list made same each => exact same.symm

/-! ### New payloads -/

/-- The payloads after one more is made with these items. -/
def add (p : Payloads) (vs : List Value) : Payloads :=
  ⟨p.count + 1, fun a => if a.index = p.count then vs else p.items a⟩

theorem extends_add (p : Payloads) (vs : List Value) : p.Extends (p.add vs) where
  count_le := Nat.le_succ _
  items_eq _ ha := if_neg (Nat.ne_of_lt ha)

theorem Consistent.add (hp : p.Consistent) (hvs : ∀ v ∈ vs, v.Fits live p) :
    (p.add vs).Consistent := by
  intro a v hv
  rw [Payloads.add] at hv
  dsimp only at hv
  split at hv
  · exact fits_mono (hvs v hv) (fun _ _ => trivial) (p.extends_add vs)
  · exact fits_mono (hp a v hv) (fun _ h => h) (p.extends_add vs)

theorem Consistent.add_nil (hp : p.Consistent) : (p.add []).Consistent := by
  have hnone : ∀ v ∈ ([] : List Value), v.Fits (fun _ => True) p := List.forall_mem_nil _
  exact hp.add hnone

/-- A list in a new payload. -/
theorem fits_add (hvs : ∀ v ∈ vs, v.Fits live p) : (Value.list ⟨p.count⟩ vs).Fits live (p.add vs) :=
  .list (Nat.lt_succ_self _) (if_pos rfl) fun v hv =>
    fits_mono (hvs v hv) (fun _ h => h) (p.extends_add vs)

end Payloads

end ScopeChain
