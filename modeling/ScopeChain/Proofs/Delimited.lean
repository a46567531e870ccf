import Mathlib.Data.List.Forall2
import Std.Data.String.ToInt

/-!
Writings that end by themselves.  Two things are told apart by their texts when no text behind one
of them makes it read as the other.  A sequence of such texts is told apart item by item as soon as
the character behind it begins no item.
-/

namespace ScopeChain.Text

variable {α : Type*} {write : α → List Char} {same : α → α → Prop}

/-- Whatever stands behind the texts of `x` and of `y`, the two agree only when `x` and `y` are the
`same` and what stands behind them agrees. -/
def ToldApart (write : α → List Char) (same : α → α → Prop) (x y : α) : Prop :=
  ∀ ⦃s t : List Char⦄, write x ++ s = write y ++ t → same x y ∧ s = t

/-- What stands before the first delimiter and what stands behind it. -/
theorem eq_of_append_cons {c : Char} {x y s t : List Char} (hx : c ∉ x) (hy : c ∉ y)
    (h : x ++ c :: s = y ++ c :: t) : x = y ∧ s = t := by
  induction x generalizing y with
  | nil =>
      cases y with
      | nil => exact ⟨rfl, List.tail_eq_of_cons_eq h⟩
      | cons d y => exact absurd (List.head_eq_of_cons_eq h) (List.ne_of_not_mem_cons hy)
  | cons d x ih =>
      cases y with
      | nil => exact absurd (List.head_eq_of_cons_eq h).symm (List.ne_of_not_mem_cons hx)
      | cons e y =>
          obtain ⟨rfl, htail⟩ := List.cons.inj h
          obtain ⟨rfl, hst⟩ := ih (List.not_mem_of_not_mem_cons hx)
            (List.not_mem_of_not_mem_cons hy) htail
          exact ⟨rfl, hst⟩

theorem forall₂_of_flatMap {c : Char} (hc : ∀ x s t, write x ++ s ≠ c :: t) {xs ys : List α}
    (hxy : ∀ x ∈ xs, ∀ y ∈ ys, ToldApart write same x y) {s t : List Char}
    (h : xs.flatMap write ++ c :: s = ys.flatMap write ++ c :: t) :
    List.Forall₂ same xs ys ∧ s = t := by
  induction xs generalizing ys with
  | nil =>
      cases ys with
      | nil => exact ⟨.nil, List.tail_eq_of_cons_eq h⟩
      | cons y ys =>
          rw [List.flatMap_cons, List.append_assoc] at h
          exact absurd h.symm (hc y _ _)
  | cons x xs ih =>
      cases ys with
      | nil =>
          rw [List.flatMap_cons, List.append_assoc] at h
          exact absurd h (hc x _ _)
      | cons y ys =>
          rw [List.flatMap_cons, List.flatMap_cons, List.append_assoc, List.append_assoc] at h
          obtain ⟨hsame, h⟩ := hxy x List.mem_cons_self y List.mem_cons_self h
          obtain ⟨hrest, hst⟩ := ih
            (fun x hx y hy => hxy x (List.mem_cons_of_mem _ hx) y (List.mem_cons_of_mem _ hy)) h
          exact ⟨.cons hsame hrest, hst⟩

/-! ### Items with a separator between any two -/

theorem intercalate_cons (sep x : List Char) (xs : List (List Char)) :
    sep.intercalate (x :: xs) = x ++ xs.flatMap (sep ++ ·) := by
  induction xs generalizing x with
  | nil => rw [List.intercalate_singleton, List.flatMap_nil, List.append_nil]
  | cons y xs ih =>
      rw [List.intercalate_cons_cons, ih, List.flatMap_cons, List.append_assoc, List.append_assoc]

theorem forall₂_of_intercalate {c d : Char} {sep : List Char} (hcd : d ≠ c)
    (hc : ∀ x s t, write x ++ s ≠ c :: t) {xs ys : List α}
    (hxy : ∀ x ∈ xs, ∀ y ∈ ys, ToldApart write same x y) {s t : List Char}
    (h : (d :: sep).intercalate (xs.map write) ++ c :: s =
      (d :: sep).intercalate (ys.map write) ++ c :: t) :
    List.Forall₂ same xs ys ∧ s = t := by
  cases xs with
  | nil =>
      cases ys with
      | nil => exact ⟨.nil, List.tail_eq_of_cons_eq h⟩
      | cons y ys =>
          rw [List.map_cons, intercalate_cons, List.append_assoc] at h
          exact absurd h.symm (hc y _ _)
  | cons x xs =>
      cases ys with
      | nil =>
          rw [List.map_cons, intercalate_cons, List.append_assoc] at h
          exact absurd h (hc x _ _)
      | cons y ys =>
          simp only [List.map_cons, intercalate_cons, List.append_assoc, List.flatMap_map] at h
          obtain ⟨hsame, h⟩ := hxy x List.mem_cons_self y List.mem_cons_self h
          have hseparated : ∀ x s t, (d :: sep ++ write x) ++ s ≠ c :: t :=
            fun x s t hx => hcd (List.head_eq_of_cons_eq hx)
          have htold : ∀ x ∈ xs, ∀ y ∈ ys, ToldApart (fun x => d :: sep ++ write x) same x y := by
            intro x hx y hy s t hst
            rw [List.append_assoc, List.append_assoc] at hst
            exact hxy x (List.mem_cons_of_mem _ hx) y (List.mem_cons_of_mem _ hy)
              (List.append_cancel_left hst)
          obtain ⟨hrest, hst⟩ := forall₂_of_flatMap hseparated htold h
          exact ⟨.cons hsame hrest, hst⟩

/-! ### Decimals -/

theorem not_mem_toString_nat {c : Char} (hc : c.isDigit = false) (n : Nat) :
    c ∉ (toString n).toList := by
  intro h
  rw [Nat.toString_eq_ofList_toDigits, String.toList_ofList] at h
  rw [Nat.isDigit_of_mem_toDigits (by decide) (by decide) h] at hc
  cases hc

theorem not_mem_toString_int {c : Char} (hc : c.isDigit = false) (hc' : c ≠ '-') (n : Int) :
    c ∉ (toString n).toList := by
  rw [Int.toString_eq_repr, Int.repr_eq_if]
  split
  · exact not_mem_toString_nat hc _
  · rw [String.toList_append, List.mem_append]
    rintro (h | h)
    · exact hc' (List.mem_singleton.mp h)
    · exact not_mem_toString_nat hc _ h

theorem eq_of_toString_nat {c : Char} (hc : c.isDigit = false) {m n : Nat} {s t : List Char}
    (h : (toString m).toList ++ c :: s = (toString n).toList ++ c :: t) : m = n ∧ s = t := by
  obtain ⟨hmn, hst⟩ :=
    eq_of_append_cons (not_mem_toString_nat hc m) (not_mem_toString_nat hc n) h
  exact ⟨Nat.repr_inj.mp (String.toList_inj.mp hmn), hst⟩

theorem eq_of_toString_int {c : Char} (hc : c.isDigit = false) (hc' : c ≠ '-') {m n : Int}
    {s t : List Char} (h : (toString m).toList ++ c :: s = (toString n).toList ++ c :: t) :
    m = n ∧ s = t := by
  obtain ⟨hmn, hst⟩ :=
    eq_of_append_cons (not_mem_toString_int hc hc' m) (not_mem_toString_int hc hc' n) h
  rw [String.toList_inj, Int.toString_eq_repr, Int.toString_eq_repr, Int.repr_inj] at hmn
  exact ⟨hmn, hst⟩

end ScopeChain.Text
