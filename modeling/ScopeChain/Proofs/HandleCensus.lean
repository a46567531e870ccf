import ScopeChain.Proofs.Payloads
import ScopeChain.Proofs.ScopeTree

/-!
The census of a store.  Counting the handles of a value counts those in the payload of a list only
when the payload is met for the first time, as a payload holds its items once, however many lists
share it.  So the census of all frames and of the handles outside is right.
-/

namespace ScopeChain

namespace Held

variable {x : Object} {h : Held} {handles more : List Held}

theorem countTo_append : countTo x (handles ++ more) = countTo x handles + countTo x more := by
  rw [countTo, List.filterMap_append, List.count_append]
  rfl

theorem countTo_cons :
    countTo x (h :: handles) = (if h.object? = some x then 1 else 0) + countTo x handles := by
  rw [countTo, List.filterMap_cons]
  cases hx : h.object? with
  | none => simp [countTo]
  | some y => simp [countTo, List.count_cons, Nat.add_comm]

theorem countTo_perm (hperm : handles.Perm more) : countTo x handles = countTo x more :=
  (hperm.filterMap object?).count_eq x

theorem countTo_ne_zero_iff : countTo x handles ≠ 0 ↔ ∃ h ∈ handles, h.object? = some x := by
  rw [countTo, Ne, List.count_eq_zero, not_not, List.mem_filterMap]

end Held

namespace Census

open Held

variable {c c' c'' : Census} {p : Payloads} {live : Scope → Prop} {v : Value} {vs : List Value}
  {handles more : List Held} {x : Object} {a : Allocation} {s : Scope}

/-- The payloads that are counted at least once. -/
def met (c : Census) : List Allocation :=
  ((List.range c.payloads.size).map Allocation.mk).filter fun a => c.ofPayload a != 0

/-- The handles in the payloads that are counted. -/
def inside (c : Census) (items : Allocation → List Value) : List Held :=
  c.met.flatMap fun a => (items a).map Value.held

theorem count_modify {counts : Array Nat} {i : Nat} (hi : i < counts.size) (j : Nat) :
    (counts.modify i (· + 1))[j]?.getD 0 = counts[j]?.getD 0 + if i = j then 1 else 0 := by
  rw [Array.getElem?_modify]
  split
  · rename_i hij
    subst hij
    rw [Array.getElem?_eq_getElem hi]
    rfl
  · rfl

theorem count_addScope (hs : s.index < c.scopes.size) (x : Object) :
    (c.addScope s).count x = c.count x + if Object.scope s = x then 1 else 0 := by
  cases x with
  | scope t =>
      cases s
      cases t
      simpa [count, ofScope, addScope] using count_modify hs _
  | payload a => simp [count, ofPayload, addScope]

theorem count_addPayload (ha : a.index < c.payloads.size) (x : Object) :
    (c.addPayload a).count x = c.count x + if Object.payload a = x then 1 else 0 := by
  cases x with
  | scope t => simp [count, ofScope, addPayload]
  | payload b =>
      cases a
      cases b
      simpa [count, ofPayload, addPayload] using count_modify ha _

theorem nodup_allocations (n : Nat) : ((List.range n).map Allocation.mk).Nodup :=
  List.nodup_range.map fun _ _ h => Allocation.mk.inj h

/-- A payload that is counted for the first time brings its items inside. -/
theorem inside_addPayload_perm (ha : a.index < c.payloads.size) (hnew : c.ofPayload a = 0)
    (items : Allocation → List Value) :
    ((c.addPayload a).inside items).Perm ((items a).map Value.held ++ c.inside items) := by
  have hcount : ∀ b, (c.addPayload a).ofPayload b = c.ofPayload b + if a = b then 1 else 0 := by
    intro b
    have hb := count_addPayload ha (.payload b)
    simp only [Object.payload.injEq] at hb
    exact hb
  have hmem : a ∈ (c.addPayload a).met := by
    refine List.mem_filter.mpr ⟨?_, ?_⟩
    · exact List.mem_map.mpr ⟨a.index, List.mem_range.mpr (by simpa [addPayload] using ha), rfl⟩
    · simp [hcount]
  have herase : (c.addPayload a).met.erase a = c.met := by
    have hsize : (c.addPayload a).payloads.size = c.payloads.size := Array.size_modify
    rw [met, met, hsize, ((nodup_allocations _).filter _).erase_eq_filter, List.filter_filter]
    refine List.filter_congr fun b _ => ?_
    rw [hcount]
    by_cases hab : a = b
    · subst hab
      simp [hnew]
    · simp [hab, Ne.symm hab]
  have hperm := List.perm_cons_erase hmem
  rw [herase] at hperm
  exact hperm.flatMap_right fun a => (items a).map Value.held

/-- A payload that was counted before brings nothing inside. -/
theorem inside_addPayload (ha : a.index < c.payloads.size) (hmet : c.ofPayload a ≠ 0)
    (items : Allocation → List Value) : (c.addPayload a).inside items = c.inside items := by
  have hsize : (c.addPayload a).payloads.size = c.payloads.size := Array.size_modify
  rw [inside, inside, met, met, hsize]
  congr 1
  refine List.filter_congr fun b _ => ?_
  have hb := count_addPayload ha (.payload b)
  simp only [count, Object.payload.injEq] at hb
  rw [hb]
  by_cases hab : a = b
  · subst hab
    simp [hmet]
  · simp [hab]

/-! ### Counting -/

/-- The census counts these handles more than before, and the handles in the payloads that it met
with them. -/
structure Adds (p : Payloads) (live : Scope → Prop) (c c' : Census) (handles : List Held) :
    Prop where
  size_scopes : c'.scopes.size = c.scopes.size
  size_payloads : c'.payloads.size = c.payloads.size
  present : ∀ s, c'.ofScope s ≠ 0 → c.ofScope s ≠ 0 ∨ live s
  balance : ∀ x, c'.count x + countTo x (c.inside p.items) =
    c.count x + countTo x (c'.inside p.items) + countTo x handles

namespace Adds

theorem refl (c : Census) : Adds p live c c [] :=
  ⟨rfl, rfl, fun _ hs => .inl hs, fun _ => rfl⟩

theorem trans (h : Adds p live c c' handles) (h' : Adds p live c' c'' more) :
    Adds p live c c'' (handles ++ more) where
  size_scopes := h'.size_scopes.trans h.size_scopes
  size_payloads := h'.size_payloads.trans h.size_payloads
  present s hs := by
    rcases h'.present s hs with hs | hs
    · exact h.present s hs
    · exact .inr hs
  balance x := by
    have hx := h.balance x
    have hx' := h'.balance x
    rw [countTo_append]
    omega

theorem perm (h : Adds p live c c' handles) (hperm : handles.Perm more) : Adds p live c c' more :=
  ⟨h.size_scopes, h.size_payloads, h.present, fun x => by rw [← countTo_perm hperm, h.balance]⟩

theorem scope (hs : s.index < c.scopes.size) (hlive : live s) :
    Adds p live c (c.addScope s) [.scope s] where
  size_scopes := Array.size_modify
  size_payloads := rfl
  present t ht := by
    have hcount := count_addScope hs (.scope t)
    simp only [count, Object.scope.injEq] at hcount
    by_cases hst : s = t
    · exact .inr (hst ▸ hlive)
    · rw [hcount, if_neg hst] at ht
      exact .inl ht
  balance x := by
    have hinside : (c.addScope s).inside p.items = c.inside p.items := rfl
    rw [count_addScope hs, hinside, countTo_cons]
    simp only [object?, Option.some.injEq]
    change _ = _ + (_ + 0)
    omega

/-- A payload that was counted before is counted once more. -/
theorem again (ha : a.index < c.payloads.size) (hmet : c.ofPayload a ≠ 0) :
    Adds p live c (c.addPayload a) [.payload a vs] where
  size_scopes := rfl
  size_payloads := Array.size_modify
  present _ hs := .inl hs
  balance x := by
    rw [count_addPayload ha, inside_addPayload ha hmet, countTo_cons]
    simp only [object?, Option.some.injEq]
    change _ = _ + (_ + 0)
    omega

/-- A payload that is met for the first time is counted with its items. -/
theorem first (ha : a.index < c.payloads.size) (hnew : c.ofPayload a = 0)
    (h : Adds p live (c.addPayload a) c' ((p.items a).map Value.held)) :
    Adds p live c c' [.payload a vs] where
  size_scopes := h.size_scopes
  size_payloads := h.size_payloads.trans Array.size_modify
  present := h.present
  balance x := by
    have hx := h.balance x
    rw [count_addPayload ha, countTo_perm (inside_addPayload_perm ha hnew p.items),
      countTo_append] at hx
    rw [countTo_cons]
    simp only [object?, Option.some.injEq]
    change _ = _ + (_ + 0)
    omega

end Adds

/-- The census has room for every scope of the kind and for every payload. -/
structure Roomy (c : Census) (p : Payloads) (live : Scope → Prop) : Prop where
  scopes : ∀ s, live s → s.index < c.scopes.size
  payloads : c.payloads.size = p.count

theorem Roomy.adds (hc : c.Roomy p live) (h : Adds p live c c' handles) : c'.Roomy p live where
  scopes s hs := h.size_scopes ▸ hc.scopes s hs
  payloads := h.size_payloads.trans hc.payloads

/-- Counting one after the other. -/
theorem adds_foldl {α : Type} {count : Census → α → Census} {held : α → List Held} {xs : List α}
    (hcount : ∀ x ∈ xs, ∀ c : Census, c.Roomy p live → Adds p live c (count c x) (held x))
    (hc : c.Roomy p live) : Adds p live c (xs.foldl count c) (xs.flatMap held) := by
  induction xs generalizing c with
  | nil => exact .refl c
  | cons x xs ih =>
      have hx := hcount x List.mem_cons_self c hc
      rw [List.flatMap_cons]
      exact hx.trans (ih (fun y hy => hcount y (List.mem_cons_of_mem _ hy)) (hc.adds hx))

theorem addValues_eq_foldl (c : Census) (vs : List Value) :
    c.addValues vs = vs.foldl addValue c := by
  induction vs generalizing c with
  | nil => rw [addValues, List.foldl_nil]
  | cons v vs ih => rw [addValues, ih, List.foldl_cons]

theorem adds_value (hv : v.Fits live p) (hc : c.Roomy p live) :
    Adds p live c (c.addValue v) [v.held] := by
  induction hv generalizing c with
  | @plain v nothing =>
      have hsame : c.addValue v = c := by
        cases v with
        | function f => cases nothing
        | list a vs => cases nothing
        | _ => rw [addValue]
      rw [hsame, nothing]
      exact ⟨rfl, rfl, fun _ hs => .inl hs, fun _ => rfl⟩
  | @function f captured =>
      rw [addValue]
      exact .scope (hc.scopes _ captured) captured
  | @list a vs made same _ ih =>
      have ha : a.index < c.payloads.size := hc.payloads ▸ made
      rw [addValue]
      split
      · rename_i hnew
        have hc' : (c.addPayload a).Roomy p live :=
          ⟨hc.scopes, Array.size_modify.trans hc.payloads⟩
        refine .first ha hnew ?_
        rw [same, addValues_eq_foldl, List.map_eq_flatMap]
        exact adds_foldl (fun v hv c hc => ih v hv hc) hc'
      · rename_i hmet
        exact .again ha hmet

theorem adds_values (hvs : ∀ v ∈ vs, v.Fits live p) (hc : c.Roomy p live) :
    Adds p live c (c.addValues vs) (vs.map Value.held) := by
  rw [addValues_eq_foldl, List.map_eq_flatMap]
  exact adds_foldl (fun v hv c hc => adds_value (hvs v hv) hc) hc

theorem adds_scopes {scopes : List Scope} (hscopes : ∀ s ∈ scopes, live s) (hc : c.Roomy p live) :
    Adds p live c (scopes.foldl addScope c) (scopes.map Held.scope) := by
  rw [List.map_eq_flatMap]
  exact adds_foldl (fun s hs c hc => .scope (hc.scopes s (hscopes s hs)) (hscopes s hs)) hc

theorem adds_frame {f : Frame} (hparent : ∀ q, f.parent = some q → live q)
    (hvalues : ∀ v ∈ f.bindings.values, v.Fits live p) (hc : c.Roomy p live) :
    Adds p live c (c.addFrame (some f)) f.handles := by
  have hlink : Adds p live c (f.parent.toList.foldl addScope c) (f.parent.toList.map Held.scope) :=
    adds_scopes (fun q hq => hparent q (Option.mem_toList.mp hq)) hc
  exact (hlink.trans (adds_values hvalues (hc.adds hlink))).perm List.perm_append_comm

end Census

namespace Store

variable {st : Store} {c : Census} {p p' : Payloads} {v : Value} {scopes : List Scope}
  {values : List Value} {outside : List Held} {items : Allocation → List Value}

/-- Every scope that the value captured is there, and its lists show what is in their payloads. -/
def Carries (st : Store) (p : Payloads) (v : Value) : Prop :=
  v.Fits (fun s => st.isLive s = true) p

/-- What the frames hold is there. -/
structure Closed (st : Store) (p : Payloads) : Prop where
  isLive_parent : ∀ {s f q}, st.frame? s = some f → f.parent = some q → st.isLive q = true
  carries : ∀ {s f v}, st.frame? s = some f → v ∈ f.bindings.values → st.Carries p v

/-! ### The handles of a store -/

theorem toList_frames (st : Store) :
    st.frames.toList = (List.range st.frames.size).map fun i => st.frame? ⟨i⟩ := by
  refine List.ext_getElem (by simp) fun i hi _ => ?_
  rw [Array.length_toList] at hi
  simp [frame?, Array.getElem?_eq_getElem hi]

theorem flatMap_filter_of_nil {α β : Type} {xs : List α} {keep : α → Bool} {f : α → List β}
    (h : ∀ x, keep x = false → f x = []) : (xs.filter keep).flatMap f = xs.flatMap f := by
  induction xs with
  | nil => rfl
  | cons x xs ih =>
      rw [List.filter_cons, List.flatMap_cons]
      split
      · rw [List.flatMap_cons, ih]
      · rename_i hkeep
        rw [h x (Bool.eq_false_iff.mpr hkeep), ih, List.nil_append]

theorem handles_eq (st : Store) (c : Census) (items : Allocation → List Value) :
    st.handles c items =
      st.frames.toList.flatMap (fun slot => slot.elim [] Frame.handles) ++ c.inside items := by
  have hscopes : (((List.range st.frames.size).map fun i => Object.scope ⟨i⟩).filter
      (st.has c)).flatMap (fun x => st.kept (x.handle items)) =
      st.frames.toList.flatMap fun slot => slot.elim [] Frame.handles := by
    have habsent : ∀ i, (st.has c ∘ fun i => Object.scope ⟨i⟩) i = false →
        st.kept ((Object.scope ⟨i⟩).handle items) = [] := by
      intro i hi
      change (st.frame? ⟨i⟩).isSome = false at hi
      rw [Object.handle, kept, Option.isNone_iff_eq_none.mp (Option.isSome_eq_false_iff.mp hi)]
      rfl
    rw [toList_frames, List.filter_map, List.flatMap_map, List.flatMap_map,
      flatMap_filter_of_nil habsent]
    rfl
  have hpayloads : (((List.range c.payloads.size).map fun i => Object.payload ⟨i⟩).filter
      (st.has c)).flatMap (fun x => st.kept (x.handle items)) = c.inside items := by
    rw [Census.inside, Census.met, List.filter_map, List.flatMap_map, List.filter_map,
      List.flatMap_map]
    rfl
  rw [handles, objects, List.filter_append, List.flatMap_append, hscopes, hpayloads]

theorem Closed.adds_ofStore (hst : st.Closed p) (hvalues : ∀ v ∈ values, st.Carries p v)
    (hscopes : ∀ s ∈ scopes, st.isLive s = true) :
    Census.Adds p (fun s => st.isLive s = true) (.empty st.frames.size p.count)
      (.ofStore st p.count scopes values)
      (st.frames.toList.flatMap (fun slot => slot.elim [] Frame.handles) ++
        (scopes.map Held.scope ++ values.map Value.held)) := by
  have hroomy : (Census.empty st.frames.size p.count).Roomy p fun s => st.isLive s = true := by
    refine ⟨fun s hs => ?_, Array.size_replicate⟩
    obtain ⟨f, hf⟩ := isLive_iff.mp hs
    rw [Census.empty, Array.size_replicate]
    exact index_lt_of_frame? hf
  have hframes : Census.Adds p (fun s => st.isLive s = true) (.empty st.frames.size p.count)
      (st.frames.foldl Census.addFrame (.empty st.frames.size p.count))
      (st.frames.toList.flatMap fun slot => slot.elim [] Frame.handles) := by
    rw [← Array.foldl_toList]
    refine Census.adds_foldl (fun slot hslot c hc => ?_) hroomy
    rw [toList_frames, List.mem_map] at hslot
    obtain ⟨i, -, rfl⟩ := hslot
    cases hf : st.frame? ⟨i⟩ with
    | none => exact .refl c
    | some f =>
        exact Census.adds_frame (fun q hq => hst.isLive_parent hf hq)
          (fun v hv => hst.carries hf hv) hc
  have houtside := Census.adds_scopes hscopes (hroomy.adds hframes)
  have hall := Census.adds_values hvalues ((hroomy.adds hframes).adds houtside)
  exact hframes.trans (houtside.trans hall)

theorem count_empty (n m : Nat) (x : Object) : (Census.empty n m).count x = 0 := by
  have hzero : ∀ k i : Nat, (Array.replicate k 0)[i]?.getD 0 = 0 := by
    intro k i
    rw [Array.getElem?_replicate]
    split <;> rfl
  cases x with
  | scope s => exact hzero n s.index
  | payload a => exact hzero m a.index

theorem inside_empty (n m : Nat) (items : Allocation → List Value) :
    (Census.empty n m).inside items = [] := by
  have hnone : (Census.empty n m).met = [] :=
    List.filter_eq_nil_iff.mpr fun a _ => by
      have ha : (Census.empty n m).ofPayload a = 0 := count_empty n m (.payload a)
      simp [ha]
  rw [Census.inside, hnone, List.flatMap_nil]

/-- The census of the frames and of handles outside is right. -/
theorem Closed.counted (hst : st.Closed p) (hp : p.Consistent)
    (hvalues : ∀ v ∈ values, st.Carries p v) (hscopes : ∀ s ∈ scopes, st.isLive s = true) :
    st.Counted (Census.ofStore st p.count scopes values) p.items
      (values.map Value.held ++ scopes.map Held.scope) where
  counted x := by
    have hadds := (hst.adds_ofStore hvalues hscopes).balance x
    rw [count_empty, inside_empty, Held.countTo_append, Held.countTo_append] at hadds
    change _ + 0 = _ at hadds
    rw [handles_eq, Held.countTo_append, Held.countTo_append, Held.countTo_append]
    omega
  present s hs := by
    refine ((hst.adds_ofStore hvalues hscopes).present s hs).resolve_left (not_not.mpr ?_)
    exact count_empty st.frames.size p.count (.scope s)
  outside_agrees h hh := by
    rcases List.mem_append.mp hh with hh | hh
    · obtain ⟨v, hv, rfl⟩ := List.mem_map.mp hh
      exact Payloads.agrees_of_fits (hvalues v hv)
    · obtain ⟨s, -, rfl⟩ := List.mem_map.mp hh
      trivial
  kept_agrees x h hh := by
    cases x with
    | scope s =>
        rw [Object.handle, kept] at hh
        cases hf : st.frame? s with
        | none =>
            rw [hf] at hh
            cases hh
        | some f =>
            rw [hf] at hh
            rcases List.mem_append.mp hh with hh | hh
            · obtain ⟨v, hv, rfl⟩ := List.mem_map.mp hh
              exact Payloads.agrees_of_fits (hst.carries hf hv)
            · obtain ⟨q, -, rfl⟩ := List.mem_map.mp hh
              trivial
    | payload a =>
        obtain ⟨v, hv, rfl⟩ := List.mem_map.mp hh
        exact Payloads.agrees_of_fits (hp a v hv)

/-! ### What a counted store carries -/

theorem Counted.count_ne_zero {x : Object} {h : Held} (hc : st.Counted c items outside)
    (hh : h ∈ outside ++ st.handles c items) (hx : h.object? = some x) : c.count x ≠ 0 := by
  rw [hc.counted, Held.countTo_ne_zero_iff]
  exact ⟨h, hh, hx⟩

theorem mem_handles {x : Object} {h : Held} (hx : st.has c x = true)
    (hh : h ∈ st.kept (x.handle items)) : h ∈ st.handles c items :=
  List.mem_flatMap.mpr ⟨x, mem_objects.mpr hx, hh⟩

/-- A value whose handle is counted has all that it needs. -/
theorem Counted.carries {live : Scope → Prop} (hc : st.Counted c p.items outside)
    (hv : v.Fits live p) (hh : v.held ∈ outside ++ st.handles c p.items) : st.Carries p v := by
  induction hv with
  | plain nothing => exact .plain nothing
  | function captured => exact .function (hc.present _ (hc.count_ne_zero hh rfl))
  | @list a vs made same _ ih =>
      refine .list made same fun v hv => ih v hv (List.mem_append_right _ ?_)
      have hcount : c.count (.payload a) ≠ 0 := hc.count_ne_zero hh rfl
      refine mem_handles (hc.has_of_count hcount) ?_
      rw [← same] at hv
      exact List.mem_map_of_mem hv

theorem Counted.isLive_of_held {s : Scope} (hc : st.Counted c items outside)
    (hh : Held.scope s ∈ outside ++ st.handles c items) : st.isLive s = true :=
  hc.present s (hc.count_ne_zero (x := .scope s) hh rfl)

theorem Counted.closed {live : Scope → Prop} (hc : st.Counted c p.items outside)
    (hvalues : ∀ {s f v}, st.frame? s = some f → v ∈ f.bindings.values → v.Fits live p) :
    st.Closed p := by
  have hkept : ∀ {s f h}, st.frame? s = some f → h ∈ f.handles →
      h ∈ outside ++ st.handles c p.items := by
    intro s f h hf hh
    refine List.mem_append_right _ (mem_handles (x := .scope s) (isLive_iff.mpr ⟨f, hf⟩) ?_)
    rw [Object.handle, kept, hf]
    exact hh
  constructor
  · intro s f q hf hq
    refine hc.isLive_of_held (hkept hf (List.mem_append_right _ ?_))
    exact List.mem_map_of_mem (Option.mem_toList.mpr hq)
  · intro s f v hf hv
    exact hc.carries (hvalues hf hv) (hkept hf (List.mem_append_left _ (List.mem_map_of_mem hv)))

end Store

end ScopeChain
