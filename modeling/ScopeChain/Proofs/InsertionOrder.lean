import ScopeChain.Bindings
import Mathlib.Data.List.Nodup

/-!
Bindings are an insertion-ordered map.  The index and the slots are kept in step by every change, so
the index decides membership, the slots decide the order, and both tell the same binding of a name.
-/

namespace ScopeChain.Bindings

/-- The index and the slots describe each other: slot `i` is the slot of a name exactly when it
holds a binding of that name. -/
def Faithful (b : Bindings) : Prop :=
  ∀ (n : Name) (i : Nat), b.index[n]? = some i ↔ ∃ x, b.slots[i]? = some (n, x)

theorem faithful_empty : Bindings.empty.Faithful := by
  intro n i
  simp [empty]

namespace Faithful

variable {b : Bindings}

theorem slot?_eq_index (h : b.Faithful) (n : Name) : b.slot? n = b.index[n]? := by
  cases hi : b.index[n]? with
  | none => simp [slot?, hi]
  | some i =>
      obtain ⟨x, hx⟩ := (h n i).mp hi
      have hlt : i < b.slots.size := (Array.getElem?_eq_some_iff.mp hx).1
      simp [slot?, hi, hlt]

theorem slot?_eq_some_iff (h : b.Faithful) {n : Name} {i : Nat} :
    b.slot? n = some i ↔ ∃ x, b.slots[i]? = some (n, x) := by
  rw [h.slot?_eq_index]
  exact h n i

theorem find?_eq_some_iff (h : b.Faithful) {n : Name} {x : Binding} :
    b.find? n = some x ↔ (n, x) ∈ b.toList := by
  simp only [find?, Option.bind_eq_some_iff, h.slot?_eq_some_iff, Option.map_eq_some_iff, toList,
    Array.mem_toList_iff, Array.mem_iff_getElem?]
  constructor
  · rintro ⟨i, ⟨y, hy⟩, e, he, rfl⟩
    rw [hy, Option.some.injEq] at he
    subst e
    exact ⟨i, hy⟩
  · rintro ⟨i, hi⟩
    exact ⟨i, ⟨x, hi⟩, (n, x), hi, rfl⟩

theorem contains_eq_isSome_slot? (h : b.Faithful) (n : Name) :
    b.contains n = (b.slot? n).isSome := by
  rw [contains, Std.TreeMap.contains_eq_isSome_getElem?, h.slot?_eq_index]

theorem contains_eq_isSome_find? (h : b.Faithful) (n : Name) :
    b.contains n = (b.find? n).isSome := by
  rw [h.contains_eq_isSome_slot?, find?]
  cases hi : b.slot? n with
  | none => rfl
  | some i =>
      obtain ⟨x, hx⟩ := h.slot?_eq_some_iff.mp hi
      simp [hx]

theorem contains_iff_mem_names (h : b.Faithful) {n : Name} :
    b.contains n = true ↔ n ∈ b.names := by
  rw [h.contains_eq_isSome_find?, Option.isSome_iff_exists, names, List.mem_map]
  constructor
  · rintro ⟨x, hx⟩
    exact ⟨(n, x), h.find?_eq_some_iff.mp hx, rfl⟩
  · rintro ⟨⟨_, x⟩, hmem, rfl⟩
    exact ⟨x, h.find?_eq_some_iff.mpr hmem⟩

theorem nodup_names (h : b.Faithful) : b.names.Nodup := by
  rw [List.nodup_iff_injective_getElem]
  rintro ⟨i, hi⟩ ⟨j, hj⟩ heq
  rw [length_names, size] at hi hj
  have hname : b.slots[i].1 = b.slots[j].1 := by simpa [names, toList] using heq
  have hsi : b.slot? b.slots[i].1 = some i :=
    h.slot?_eq_some_iff.mpr ⟨b.slots[i].2, Array.getElem?_eq_getElem hi⟩
  have hsj : b.slot? b.slots[j].1 = some j :=
    h.slot?_eq_some_iff.mpr ⟨b.slots[j].2, Array.getElem?_eq_getElem hj⟩
  rw [hname, hsj, Option.some.injEq] at hsi
  exact Fin.ext hsi.symm

/-! ### Changing the binding in a slot -/

theorem modify (h : b.Faithful) (i : Nat) (g : Binding → Binding) :
    Faithful { b with slots := b.slots.modify i fun e => (e.1, g e.2) } := by
  intro n j
  rw [h n j]
  simp only [Array.getElem?_modify]
  split
  · cases b.slots[j]? with
    | none => simp
    | some e => simp [Prod.ext_iff]
  · rfl

theorem toList_modify (h : b.Faithful) {n : Name} {i : Nat} (hi : b.slot? n = some i)
    (g : Binding → Binding) :
    toList { b with slots := b.slots.modify i fun e => (e.1, g e.2) } =
      b.toList.map fun e => if e.1 = n then (e.1, g e.2) else e := by
  apply List.ext_getElem?
  intro j
  simp only [toList, List.getElem?_map, Array.getElem?_toList, Array.getElem?_modify]
  cases hj : b.slots[j]? with
  | none => simp
  | some e =>
      -- Slot `i` is the only one that holds the name.
      have hiff : e.1 = n ↔ i = j := by
        rw [← Option.some.injEq i j, ← hi, h.slot?_eq_some_iff, hj]
        simp [Prod.ext_iff]
      by_cases hij : i = j
      · simp [hij, hiff.mpr hij]
      · simp [hij, hiff]

theorem find?_modify (h : b.Faithful) {n : Name} {i : Nat} (hi : b.slot? n = some i)
    (g : Binding → Binding) (m : Name) :
    find? { b with slots := b.slots.modify i fun e => (e.1, g e.2) } m =
      if m = n then (b.find? m).map g else b.find? m := by
  apply Option.ext
  intro y
  rw [(h.modify i g).find?_eq_some_iff, h.toList_modify hi, List.mem_map]
  constructor
  · rintro ⟨⟨k, x⟩, hmem, heq⟩
    have hx := h.find?_eq_some_iff.mpr hmem
    dsimp only at heq
    split at heq
    · rename_i hkn
      rw [Prod.mk.injEq] at heq
      obtain ⟨rfl, rfl⟩ := heq
      rw [if_pos hkn, hx, Option.map_some]
    · rename_i hkn
      rw [Prod.mk.injEq] at heq
      obtain ⟨rfl, rfl⟩ := heq
      rw [if_neg hkn, hx]
  · split
    · rename_i hmn
      intro hy
      obtain ⟨x, hx, rfl⟩ := Option.map_eq_some_iff.mp hy
      exact ⟨(m, x), h.find?_eq_some_iff.mp hx, by simp [hmn]⟩
    · rename_i hmn
      intro hy
      exact ⟨(m, y), h.find?_eq_some_iff.mp hy, by simp [hmn]⟩

/-! ### Binding a name -/

theorem slot?_eq_none (h : b.Faithful) {n : Name} (hn : b.contains n = false) :
    b.slot? n = none := by
  rwa [h.contains_eq_isSome_slot?, Option.isSome_eq_false_iff, Option.isNone_iff_eq_none] at hn

theorem exists_slot (h : b.Faithful) {n : Name} (hn : b.contains n = true) :
    ∃ i, b.slot? n = some i := by
  rwa [h.contains_eq_isSome_slot?, Option.isSome_iff_exists] at hn

theorem insert (h : b.Faithful) (n : Name) (x : Binding) : (b.insert n x).Faithful := by
  unfold Bindings.insert
  cases hs : b.slot? n with
  | some i => exact h.modify i fun _ => x
  | none =>
      rw [h.slot?_eq_index] at hs
      intro m j
      simp only [Std.TreeMap.getElem?_insert, Array.getElem?_push,
        Std.LawfulEqCmp.compare_eq_iff_eq]
      by_cases hnm : n = m
      · subst hnm
        have hfree : ∀ y, b.slots[j]? ≠ some (n, y) := by
          intro y hy
          rw [(h n j).mpr ⟨y, hy⟩] at hs
          cases hs
        by_cases hj : j = b.slots.size
        · simp [hj]
        · simp [hj, hfree, Ne.symm hj]
      · by_cases hj : j = b.slots.size
        · subst hj
          have := h m b.slots.size
          simp_all
        · simp [hnm, hj, h m]

theorem toList_insert_of_contains (h : b.Faithful) {n : Name} (hn : b.contains n = true)
    (x : Binding) :
    (b.insert n x).toList = b.toList.map fun e => if e.1 = n then (e.1, x) else e := by
  obtain ⟨i, hi⟩ := h.exists_slot hn
  simp only [Bindings.insert, hi]
  exact h.toList_modify hi fun _ => x

theorem toList_insert_of_not_contains (h : b.Faithful) {n : Name} (hn : b.contains n = false)
    (x : Binding) : (b.insert n x).toList = b.toList ++ [(n, x)] := by
  simp [Bindings.insert, h.slot?_eq_none hn, toList]

theorem names_insert (h : b.Faithful) (n : Name) (x : Binding) :
    (b.insert n x).names = if n ∈ b.names then b.names else b.names ++ [n] := by
  cases hn : b.contains n with
  | true =>
      rw [if_pos (h.contains_iff_mem_names.mp hn)]
      simp only [names, h.toList_insert_of_contains hn, List.map_map]
      apply List.map_congr_left
      intro e _
      simp only [Function.comp_apply]
      split <;> rfl
  | false =>
      have hmem : n ∉ b.names := by simp [← h.contains_iff_mem_names, hn]
      rw [if_neg hmem, names, h.toList_insert_of_not_contains hn]
      simp [names]

theorem find?_insert (h : b.Faithful) (n m : Name) (x : Binding) :
    (b.insert n x).find? m = if m = n then some x else b.find? m := by
  cases hn : b.contains n with
  | true =>
      obtain ⟨i, hi⟩ := h.exists_slot hn
      have hfound : (b.find? n).isSome := by rw [← h.contains_eq_isSome_find?, hn]
      simp only [Bindings.insert, hi]
      rw [h.find?_modify hi fun _ => x]
      split
      · rename_i hmn
        subst hmn
        obtain ⟨y, hy⟩ := Option.isSome_iff_exists.mp hfound
        simp [hy]
      · rfl
  | false =>
      apply Option.ext
      intro y
      rw [(h.insert n x).find?_eq_some_iff, h.toList_insert_of_not_contains hn]
      have hfree : b.find? n = none := by
        rwa [h.contains_eq_isSome_find?, Option.isSome_eq_false_iff,
          Option.isNone_iff_eq_none] at hn
      rw [List.mem_append, ← h.find?_eq_some_iff]
      by_cases hmn : m = n
      · subst hmn
        simp [hfree, eq_comm]
      · simp [hmn]

/-! ### Assigning to a bound name -/

theorem assign (h : b.Faithful) (n : Name) (v : Value) : (b.assign n v).Faithful := by
  unfold Bindings.assign
  cases b.slot? n with
  | some i => exact h.modify i fun x => { x with value := v }
  | none => exact h

theorem toList_assign (h : b.Faithful) (n : Name) (v : Value) :
    (b.assign n v).toList =
      b.toList.map fun e => if e.1 = n then (e.1, { e.2 with value := v }) else e := by
  unfold Bindings.assign
  cases hi : b.slot? n with
  | some i => exact h.toList_modify hi fun x => { x with value := v }
  | none =>
      refine (List.map_id b.toList).symm.trans (List.map_congr_left ?_)
      intro e he
      have hne : e.1 ≠ n := by
        rintro rfl
        have hmem : e.1 ∈ b.names := List.mem_map_of_mem he
        rw [← h.contains_iff_mem_names, h.contains_eq_isSome_slot?, hi] at hmem
        cases hmem
      simp [hne]

theorem names_assign (h : b.Faithful) (n : Name) (v : Value) :
    (b.assign n v).names = b.names := by
  simp only [names, h.toList_assign, List.map_map]
  apply List.map_congr_left
  intro e _
  simp only [Function.comp_apply]
  split <;> rfl

theorem find?_assign (h : b.Faithful) (n m : Name) (v : Value) :
    (b.assign n v).find? m =
      if m = n then (b.find? m).map fun x => { x with value := v } else b.find? m := by
  unfold Bindings.assign
  cases hi : b.slot? n with
  | some i => exact h.find?_modify hi (fun x => { x with value := v }) m
  | none =>
      by_cases hmn : m = n
      · subst hmn
        simp [find?, hi]
      · rw [if_neg hmn]

end Faithful

end ScopeChain.Bindings
