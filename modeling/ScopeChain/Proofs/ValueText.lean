import ScopeChain.Proofs.Quotation
import ScopeChain.Proofs.ValueEquality
import ScopeChain.Value.Text

/-!
The structural texts of data.  A value that is built without floats and functions is told from every
other such value by its text on one line: the text ends by itself, so the items of a list are read
one after the other, and two values have one text exactly when they are equal.
-/

namespace ScopeChain.Value

open Text

/-- A value without floats and functions, at any depth of lists. -/
inductive IsData : Value → Prop where
  | int (n : Int64) : IsData (.int n)
  | bool (b : Bool) : IsData (.bool b)
  | text (p : Allocation) (s : String) : IsData (.text p s)
  | void : IsData .void
  | list (p : Allocation) {items : List Value} (h : ∀ x ∈ items, IsData x) :
      IsData (.list p items)
  | builtin (name : String) : IsData (.builtin name)

/-- The characters of the text of a value on one line. -/
def written (view : Scope → Shape) (a : Value) : List Char :=
  (a.shape view).line.toList

section written

variable (view : Scope → Shape)

@[simp] theorem written_int (n : Int64) :
    written view (.int n) = 'I' :: 'n' :: 't' :: '(' :: ((toString n.toInt).toList ++ [')']) := by
  simp [written, shape, Shape.line]

@[simp] theorem written_bool (b : Bool) :
    written view (.bool b) = 'B' :: 'o' :: 'o' :: 'l' :: '(' ::
      ((bif b then ['t', 'r', 'u', 'e'] else ['f', 'a', 'l', 's', 'e']) ++ [')']) := by
  cases b <;> simp [written, shape, Shape.line, toString]

@[simp] theorem written_text (p : Allocation) (s : String) :
    written view (.text p s) = 'S' :: 't' :: 'r' :: '(' :: ((quote s).toList ++ [')']) := by
  simp [written, shape, Shape.line]

@[simp] theorem written_void : written view .void = ['V', 'o', 'i', 'd'] := by
  simp [written, shape, Shape.line]

@[simp] theorem written_list (p : Allocation) (items : List Value) :
    written view (.list p items) = 'L' :: 'i' :: 's' :: 't' :: '(' :: '[' ::
      ([',', ' '].intercalate (items.map (written view)) ++ [']', ')']) := by
  have hwritten : written view = String.toList ∘ Shape.line ∘ shape view := rfl
  rw [hwritten]
  simp [shape, Shape.line, shapes_eq_map, Shape.lines_eq_map]

@[simp] theorem written_builtin (name : String) :
    written view (.builtin name) =
      'B' :: 'u' :: 'i' :: 'l' :: 't' :: 'i' :: 'n' :: '(' :: ((quote name).toList ++ [')']) := by
  simp [written, shape, Shape.line]

theorem written_append_ne (a : Value) (s t : List Char) : written view a ++ s ≠ ']' :: t := by
  cases a <;> simp [written, shape, Shape.line]

end written

variable {view : Scope → Shape}

theorem toldApart_written {a b : Value} (ha : IsData a) (hb : IsData b) :
    ToldApart (written view) (fun a b => a.equals b = true) a b := by
  -- What stands behind the texts stays free: behind an item it is the rest of the list.
  induction ha generalizing b with
  | int m =>
      intro s t h
      cases hb with
      | int n =>
          simp only [written_int, List.cons_append, List.append_assoc, List.nil_append,
            List.cons.injEq, true_and] at h
          obtain ⟨hmn, hst⟩ := eq_of_toString_int (by decide) (by decide) h
          obtain rfl := Int64.toInt_inj.mp hmn
          exact ⟨equals_iff_matches.mpr (.int m), hst⟩
      | _ => simp at h
  | bool x =>
      intro s t h
      cases hb with
      | bool y =>
          simp only [written_bool, List.cons_append, List.append_assoc, List.nil_append,
            List.cons.injEq, true_and] at h
          cases x <;> cases y <;> simp at h
          · exact ⟨rfl, h⟩
          · exact ⟨rfl, h⟩
      | _ => simp at h
  | text p x =>
      intro s t h
      cases hb with
      | text q y =>
          simp only [written_text, List.cons_append, List.append_assoc, List.nil_append,
            List.cons.injEq, true_and] at h
          obtain ⟨rfl, hst⟩ := toldApart_quote x y h
          exact ⟨equals_iff_matches.mpr (.text x), List.tail_eq_of_cons_eq hst⟩
      | _ => simp at h
  | void =>
      intro s t h
      cases hb with
      | void => exact ⟨rfl, List.append_cancel_left h⟩
      | _ => simp at h
  | list p hitems ih =>
      intro s t h
      cases hb with
      | list q hitems' =>
          simp only [written_list, List.cons_append, List.append_assoc, List.nil_append,
            List.cons.injEq, true_and] at h
          obtain ⟨hsame, hst⟩ := forall₂_of_intercalate (by decide) (written_append_ne view)
            (fun x hx y hy => ih x hx (hitems' y hy)) h
          exact ⟨equals_iff_matches.mpr (.list hsame), List.tail_eq_of_cons_eq hst⟩
      | _ => simp at h
  | builtin x =>
      intro s t h
      cases hb with
      | builtin y =>
          simp only [written_builtin, List.cons_append, List.append_assoc, List.nil_append,
            List.cons.injEq, true_and] at h
          obtain ⟨rfl, hst⟩ := toldApart_quote x y h
          exact ⟨equals_iff_matches.mpr (.builtin x), List.tail_eq_of_cons_eq hst⟩
      | _ => simp at h

theorem written_eq_of_equals {a b : Value} (ha : IsData a) (h : a.equals b = true) :
    written view a = written view b := by
  induction ha generalizing b with
  | @list p items _ ih =>
      cases equals_iff_matches.mp h with
      | list hxy =>
          rename_i q ys
          obtain ⟨hlength, hxy⟩ := List.forall₂_iff_get.mp hxy
          have hmap : items.map (written view) = ys.map (written view) := by
            refine List.ext_get (by simpa using hlength) fun i hi hi' => ?_
            rw [List.length_map] at hi hi'
            simpa using ih _ (List.get_mem items ⟨i, hi⟩) (hxy i hi hi')
          rw [written_list, written_list, hmap]
  | _ =>
      cases equals_iff_matches.mp h
      simp

/-- No scope shows in the text of data. -/
theorem shape_congr (view view' : Scope → Shape) {a : Value} (ha : IsData a) :
    a.shape view = a.shape view' := by
  induction ha with
  | list p hitems ih => simpa [shape, shapes_eq_map] using ih
  | _ => rfl

/-- The texts of data on one line are equal exactly when the data are. -/
theorem line_eq_line_iff (view view' : Scope → Shape) {a b : Value} (ha : IsData a)
    (hb : IsData b) : (a.shape view).line = (b.shape view').line ↔ a.equals b = true := by
  rw [shape_congr view' view hb, ← String.toList_inj]
  constructor
  · intro h
    have happend : written view a ++ [] = written view b ++ [] := congrArg (· ++ []) h
    exact (toldApart_written ha hb happend).1
  · exact written_eq_of_equals ha

/-- A text that looks like the end of one item and the beginning of the next. -/
theorem line_of_quotes_in_list :
    let view : Scope → Shape := fun _ => .list []
    let a := Value.list ⟨0⟩ [.text ⟨1⟩ "x\"), Str(\"y", .list ⟨2⟩ [.int (-5)]]
    let b := Value.list ⟨3⟩ [.text ⟨4⟩ "x\"), Str(\"y", .list ⟨5⟩ [.int (-5)]]
    let c := Value.list ⟨6⟩ [.text ⟨7⟩ "x", .text ⟨8⟩ "y", .list ⟨9⟩ [.int (-5)]]
    IsData a ∧ IsData b ∧ IsData c ∧ (a.shape view).line = (b.shape view).line ∧
      (a.shape view).line ≠ (c.shape view).line := by
  intro view a b c
  have ha : IsData a := .list _ (by simp [IsData.text, IsData.list, IsData.int])
  have hb : IsData b := .list _ (by simp [IsData.text, IsData.list, IsData.int])
  have hc : IsData c := .list _ (by simp [IsData.text, IsData.list, IsData.int])
  refine ⟨ha, hb, hc, (line_eq_line_iff view view ha hb).mpr (by decide), fun h => ?_⟩
  exact absurd ((line_eq_line_iff view view ha hc).mp h) (by decide)

end ScopeChain.Value
