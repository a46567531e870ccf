import Mathlib.Data.List.Forall2
import ScopeChain.Value

/-!
Equality of values.  It is symmetric and transitive, but a value need not equal itself: a float that
is not a number equals nothing, and neither does a list in which it stands.  Equal values cannot be
told apart by what they are asked, except for their conversion to floating point, since the two
zeros are equal.
-/

namespace ScopeChain.Value

/-- A value stands in another when it is that value or stands in an item of it.  Functions are not
looked into. -/
inductive OccursIn (x : Value) : Value → Prop where
  | self : OccursIn x x
  | item {p : Allocation} {items : List Value} {y : Value} (hy : y ∈ items) (h : OccursIn x y) :
      OccursIn x (.list p items)

theorem occursIn_list {x : Value} {p : Allocation} {items : List Value} :
    OccursIn x (.list p items) ↔ x = .list p items ∨ ∃ y ∈ items, OccursIn x y := by
  constructor
  · rintro (_ | ⟨hy, h⟩)
    · exact .inl rfl
    · exact .inr ⟨_, hy, h⟩
  · rintro (rfl | ⟨y, hy, h⟩)
    · exact .self
    · exact .item hy h

theorem eq_of_occursIn {x v : Value} (hv : v.list? = none) (h : OccursIn x v) : x = v := by
  cases h with
  | self => rfl
  | item => cases hv

/-- Induction over the lists in a value. -/
@[elab_as_elim]
theorem item_induction {motive : Value → Prop} (leaf : ∀ v, v.list? = none → motive v)
    (list : ∀ p items, (∀ x ∈ items, motive x) → motive (.list p items)) (v : Value) :
    motive v := by
  cases v with
  | list p items => exact list p items fun x _ => item_induction leaf list x
  | _ => exact leaf _ rfl
termination_by sizeOf v

theorem allEqual_iff {xs ys : List Value} :
    allEqual xs ys = true ↔ List.Forall₂ (fun x y => x.equals y = true) xs ys := by
  induction xs generalizing ys with
  | nil => cases ys <;> simp [allEqual]
  | cons x xs ih => cases ys <;> simp [allEqual, ih]

/-- All the ways in which two values can be equal. -/
inductive Matches : Value → Value → Prop where
  | int (n : Int64) : Matches (.int n) (.int n)
  | float {x y : Binary64} (h : x.equals y = true) : Matches (.float x) (.float y)
  | bool (b : Bool) : Matches (.bool b) (.bool b)
  | text {p q : Allocation} (s : String) : Matches (.text p s) (.text q s)
  | void : Matches .void .void
  | list {p q : Allocation} {xs ys : List Value}
      (h : List.Forall₂ (fun x y => x.equals y = true) xs ys) : Matches (.list p xs) (.list q ys)
  | function {f g : Closure} (body : f.body = g.body) (captured : f.captured = g.captured) :
      Matches (.function f) (.function g)
  | builtin (name : String) : Matches (.builtin name) (.builtin name)

theorem equals_iff_matches {a b : Value} : a.equals b = true ↔ Matches a b := by
  constructor
  · intro h
    unfold equals at h
    split at h
    · rw [beq_iff_eq.mp h]
      exact .int _
    · exact .float h
    · rw [beq_iff_eq.mp h]
      exact .bool _
    · rw [beq_iff_eq.mp h]
      exact .text _
    · exact .void
    · exact .list (allEqual_iff.mp h)
    · obtain ⟨body, captured⟩ := Closure.equals_iff.mp h
      exact .function body captured
    · rw [beq_iff_eq.mp h]
      exact .builtin _
    · cases h
  · intro h
    cases h with
    | float h => exact h
    | list h => exact allEqual_iff.mpr h
    | function body captured => exact Closure.equals_iff.mpr ⟨body, captured⟩
    | void => rfl
    | _ => exact beq_self_eq_true _

theorem equals_symm {a b : Value} (h : a.equals b = true) : b.equals a = true := by
  induction a using item_induction generalizing b with
  | leaf a ha =>
      rw [equals_iff_matches] at h ⊢
      cases h with
      | float h => exact .float (Binary64.equals_comm _ _ ▸ h)
      | list => cases ha
      | function body captured => exact .function body.symm captured.symm
      | _ => constructor
  | list p items ih =>
      rw [equals_iff_matches] at h ⊢
      cases h with
      | list h =>
          obtain ⟨hlength, hitems⟩ := List.forall₂_iff_get.mp h
          refine .list (List.forall₂_iff_get.mpr ⟨hlength.symm, fun i hi hi' => ?_⟩)
          exact ih _ (List.get_mem items ⟨i, hi'⟩) (hitems i hi' hi)

theorem equals_trans {a b c : Value} (hab : a.equals b = true) (hbc : b.equals c = true) :
    a.equals c = true := by
  induction a using item_induction generalizing b c with
  | leaf a ha =>
      rw [equals_iff_matches] at hab hbc ⊢
      cases hab with
      | float hxy =>
          cases hbc with
          | float hyz => exact .float (Binary64.equals_trans hxy hyz)
      | list => cases ha
      | function body captured =>
          cases hbc with
          | function body' captured' =>
              exact .function (body.trans body') (captured.trans captured')
      | text s =>
          cases hbc with
          | text => exact .text s
      | _ => exact hbc
  | list p items ih =>
      rw [equals_iff_matches] at hab hbc ⊢
      cases hab with
      | list hab =>
          cases hbc with
          | list hbc =>
              obtain ⟨hlength, hxy⟩ := List.forall₂_iff_get.mp hab
              obtain ⟨hlength', hyz⟩ := List.forall₂_iff_get.mp hbc
              refine .list (List.forall₂_iff_get.mpr ⟨hlength.trans hlength', fun i hi hi' => ?_⟩)
              have hi'' := hlength ▸ hi
              exact ih _ (List.get_mem items ⟨i, hi⟩) (hxy i hi hi'') (hyz i hi'' hi')

instance : PartialEquivBEq Value where
  symm := equals_symm
  trans := equals_trans

theorem equals_self_list {p : Allocation} {items : List Value} :
    (Value.list p items).equals (.list p items) = true ↔ ∀ x ∈ items, x.equals x = true := by
  rw [equals, allEqual_iff, List.forall₂_same]

theorem equals_self_iff {a : Value} :
    a.equals a = true ↔ ∀ x, OccursIn (.float x) a → x.isNaN = false := by
  induction a using item_induction with
  | leaf a ha =>
      constructor
      · intro h x hx
        rw [← eq_of_occursIn ha hx, equals, Binary64.equals_self] at h
        simpa using h
      · intro h
        cases a with
        | float x =>
            rw [equals, Binary64.equals_self, h x .self]
            rfl
        | list => cases ha
        | function f => exact Closure.equals_iff.mpr ⟨rfl, rfl⟩
        | void => rfl
        | _ => exact beq_self_eq_true _
  | list p items ih =>
      rw [equals_self_list]
      constructor
      · intro h x hx
        obtain hx | ⟨y, hy, hx⟩ := occursIn_list.mp hx
        · cases hx
        · exact (ih y hy).mp (h y hy) x hx
      · intro h y hy
        exact (ih y hy).mpr fun x hx => h x (.item hy hx)

/-- Two values answer alike, up to equality of the items of lists. -/
structure Alike (a b : Value) : Prop where
  kind : a.kind = b.kind
  truth : a.truth = b.truth
  canBeCalled : a.canBeCalled = b.canBeCalled
  int? : a.int? = b.int?
  bool? : a.bool? = b.bool?
  text? : a.text? = b.text?
  list? : Option.Rel (List.Forall₂ fun x y => x.equals y = true) a.list? b.list?
  closure? : Option.Rel (fun f g => f.body = g.body ∧ f.captured = g.captured) a.closure? b.closure?

theorem alike_of_equals {a b : Value} (h : a.equals b = true) : Alike a b := by
  cases equals_iff_matches.mp h with
  | float h =>
      refine ⟨rfl, ?_, rfl, rfl, rfl, rfl, .none, .none⟩
      rw [truth, truth, Binary64.isZero_eq_of_equals h]
  | list hitems =>
      refine ⟨rfl, ?_, rfl, rfl, rfl, rfl, .some hitems, .none⟩
      cases hitems with
      | nil => rfl
      | cons => rfl
  | function body captured => exact ⟨rfl, rfl, rfl, rfl, rfl, rfl, .none, .some ⟨body, captured⟩⟩
  | _ => exact ⟨rfl, rfl, rfl, rfl, rfl, rfl, .none, .none⟩

/-- Equality is symmetric and transitive, a value equals itself exactly when every float that stands
in it is a number, and equal values answer alike. -/
theorem equality_respects_observers (a b c : Value) :
    (a.equals b = true → b.equals a = true) ∧
      (a.equals b = true → b.equals c = true → a.equals c = true) ∧
      (a.equals a = true ↔ ∀ x, OccursIn (.float x) a → x.isNaN = false) ∧
      (a.equals b = true → Alike a b) :=
  ⟨equals_symm, equals_trans, equals_self_iff, alike_of_equals⟩

/-- Lists with the two zeros and with one function under two names, and a list with no equal. -/
theorem equality_of_zeros_in_lists :
    let zero : Binary64 := ⟨0⟩
    let minusZero : Binary64 := ⟨0x8000000000000000⟩
    let nan : Binary64 := ⟨0x7ff8000000000000⟩
    let f : Closure := ⟨none, [], ⟨1⟩, ⟨0⟩⟩
    let a := Value.list ⟨0⟩ [.float zero, .list ⟨1⟩ [.function f]]
    let b := Value.list ⟨2⟩ [.float minusZero, .list ⟨3⟩ [.function { f with name := some ⟨"f"⟩ }]]
    let c := Value.list ⟨4⟩ [.float zero, .list ⟨5⟩ [.function f]]
    let d := Value.list ⟨6⟩ [.float zero, .list ⟨7⟩ [.float nan]]
    a.equals b = true ∧ b.equals c = true ∧ b.equals a = true ∧ a.equals c = true ∧ Alike a b ∧
      ¬ d.equals d = true := by
  intro zero minusZero nan f a b c d
  have hab : a.equals b = true := by decide
  have hbc : b.equals c = true := by decide
  obtain ⟨hsymm, htrans, -, halike⟩ := equality_respects_observers a b c
  obtain ⟨-, -, hself, -⟩ := equality_respects_observers d d d
  refine ⟨hab, hbc, hsymm hab, htrans hab hbc, halike hab, fun h => ?_⟩
  have hnan : OccursIn (.float nan) d :=
    .item (List.mem_cons_of_mem _ List.mem_cons_self) (.item List.mem_cons_self .self)
  exact absurd (hself.mp h nan hnan) (by decide)

end ScopeChain.Value
