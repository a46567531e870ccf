import ScopeChain.Proofs.HandleCounting
import ScopeChain.Reclaim

/-!
The heap that the handles span: the frames of the live scopes and the payloads of the lists that are
still shared.  A census is right about a store when it counts, for each object, the handles held
outside and those in the objects of the heap.
-/

namespace ScopeChain

inductive Object where
  | scope (s : Scope)
  | payload (a : Allocation)
deriving DecidableEq, Repr

namespace Held

def object? : Held → Option Object
  | .nothing => none
  | .scope s => some (.scope s)
  | .payload a _ => some (.payload a)

/-- The handle shows the items that are in its payload. -/
def Agrees (items : Allocation → List Value) : Held → Prop
  | .payload a shown => shown = items a
  | .nothing | .scope _ => True

/-- The number of handles to an object among some handles. -/
def countTo (x : Object) (handles : List Held) : Nat :=
  (handles.filterMap object?).count x

end Held

/-- A handle to the object, where `items` tells what is in each payload. -/
def Object.handle (items : Allocation → List Value) : Object → Held
  | .scope s => .scope s
  | .payload a => .payload a (items a)

theorem Held.eq_handle {items : Allocation → List Value} {h : Held} {x : Object}
    (hx : h.object? = some x) (hagrees : h.Agrees items) : h = x.handle items := by
  cases h with
  | nothing => exact absurd hx (by simp [Held.object?])
  | scope s =>
      obtain rfl : Object.scope s = x := Option.some.inj hx
      rfl
  | payload a shown =>
      obtain rfl : Object.payload a = x := Option.some.inj hx
      exact congrArg (Held.payload a) hagrees

/-- The handles in a frame: those of its bindings, and the link to the scope around it. -/
def Frame.handles (f : Frame) : List Held :=
  f.bindings.values.map Value.held ++ f.parent.toList.map Held.scope

namespace Census

def count (c : Census) : Object → Nat
  | .scope s => c.ofScope s
  | .payload a => c.ofPayload a

def drop (c : Census) : Object → Census
  | .scope s => c.dropScope s
  | .payload a => c.dropPayload a

theorem count_drop (c : Census) (x y : Object) :
    (c.drop x).count y = if y = x then c.count y - 1 else c.count y := by
  have hmodify : ∀ (counts : Array Nat) (i j : Nat),
      (counts.modify i (· - 1))[j]?.getD 0 =
        if j = i then counts[j]?.getD 0 - 1 else counts[j]?.getD 0 := by
    intro counts i j
    rw [Array.getElem?_modify]
    by_cases hij : i = j
    · subst hij
      rw [if_pos rfl, if_pos rfl]
      cases counts[i]? <;> rfl
    · rw [if_neg hij, if_neg (Ne.symm hij)]
  cases x with
  | scope s =>
      cases y with
      | scope t =>
          cases s
          cases t
          simpa [count, drop, ofScope, dropScope] using hmodify c.scopes _ _
      | payload a => simp [count, drop, ofPayload, dropScope]
  | payload a =>
      cases y with
      | scope t => simp [count, drop, ofScope, dropPayload]
      | payload b =>
          cases a
          cases b
          simpa [count, drop, ofPayload, dropPayload] using hmodify c.payloads _ _

theorem total_drop_lt {c : Census} {x : Object} (h : c.count x ≠ 0) :
    (c.drop x).total < c.total := by
  cases x with
  | scope s => exact total_dropScope_lt h
  | payload a => exact total_dropPayload_lt h

theorem drop_of_count_eq_zero {c : Census} {x : Object} (h : c.count x = 0) : c.drop x = c := by
  have hmodify : ∀ (counts : Array Nat) (i : Nat), counts[i]?.getD 0 = 0 →
      counts.modify i (· - 1) = counts := by
    intro counts i hi
    apply Array.ext_getElem?
    intro j
    rw [Array.getElem?_modify]
    split
    · subst i
      cases hj : counts[j]? with
      | none => rfl
      | some n =>
          rw [hj] at hi
          simp only [Option.getD_some] at hi
          simp [hi]
    · rfl
  cases x with
  | scope s => simp only [drop, dropScope, hmodify c.scopes s.index h]
  | payload a => simp only [drop, dropPayload, hmodify c.payloads a.index h]

theorem total_drop_le (c : Census) (x : Object) : (c.drop x).total ≤ c.total := by
  by_cases h : c.count x = 0
  · exact Nat.le_of_eq (congrArg total (drop_of_count_eq_zero h))
  · exact Nat.le_of_lt (total_drop_lt h)

end Census

namespace Store

variable {st st' : Store} {c c' : Census} {items : Allocation → List Value} {x : Object}

/-- The handles that the held object keeps in turn. -/
def kept (st : Store) : Held → List Held
  | .nothing => []
  | .scope s => (st.frame? s).elim [] Frame.handles
  | .payload _ shown => shown.map Value.held

/-- Take an object from the heap; a payload takes no room in the store. -/
def without (st : Store) : Object → Store
  | .scope s => st.release s
  | .payload _ => st

/-- Whether the object is in the heap: a scope that is live, or a payload that is still shared. -/
def has (st : Store) (c : Census) : Object → Bool
  | .scope s => st.isLive s
  | .payload a => c.ofPayload a != 0

def objects (st : Store) (c : Census) : List Object :=
  ((List.range st.frames.size).map (fun i => Object.scope ⟨i⟩) ++
    (List.range c.payloads.size).map (fun i => Object.payload ⟨i⟩)).filter (st.has c)

/-- The handles in the objects of the heap. -/
def handles (st : Store) (c : Census) (items : Allocation → List Value) : List Held :=
  (st.objects c).flatMap fun x => st.kept (x.handle items)

/-- The census is right: it counts the handles held outside and those in the heap, only live scopes
are held, and the lists that share a payload agree on its items. -/
structure Counted (st : Store) (c : Census) (items : Allocation → List Value)
    (outside : List Held) : Prop where
  counted : ∀ x, c.count x = Held.countTo x (outside ++ st.handles c items)
  present : ∀ s, c.ofScope s ≠ 0 → st.isLive s = true
  outside_agrees : ∀ h ∈ outside, h.Agrees items
  kept_agrees : ∀ x : Object, ∀ h ∈ st.kept (x.handle items), h.Agrees items

theorem has_payload {a : Allocation} :
    st.has c (.payload a) = true ↔ c.count (.payload a) ≠ 0 := by
  simp [has, Census.count]

theorem mem_objects : x ∈ st.objects c ↔ st.has c x = true := by
  rw [objects, List.mem_filter]
  refine ⟨And.right, fun h => ⟨?_, h⟩⟩
  cases x with
  | scope s =>
      have hlt : s.index < st.frames.size := by
        by_contra hge
        simp [has, isLive, frame?, Array.getElem?_eq_none (Nat.le_of_not_lt hge)] at h
      simp only [List.mem_append, List.mem_map, List.mem_range]
      exact .inl ⟨s.index, hlt, rfl⟩
  | payload a =>
      have hlt : a.index < c.payloads.size := by
        by_contra hge
        simp [has, Census.ofPayload, Array.getElem?_eq_none (Nat.le_of_not_lt hge)] at h
      simp only [List.mem_append, List.mem_map, List.mem_range]
      exact .inr ⟨a.index, hlt, rfl⟩

theorem nodup_objects (st : Store) (c : Census) : (st.objects c).Nodup := by
  apply List.Nodup.filter
  rw [List.nodup_append]
  refine ⟨?_, ?_, ?_⟩
  · exact List.nodup_range.map fun i j h => by injection h with h; injection h
  · exact List.nodup_range.map fun i j h => by injection h with h; injection h
  · intro x hx y hy
    simp only [List.mem_map] at hx hy
    obtain ⟨i, _, rfl⟩ := hx
    obtain ⟨j, _, rfl⟩ := hy
    exact Object.noConfusion

/-- Every object that is held is in the heap. -/
theorem Counted.has_of_count {outside : List Held} (h : st.Counted c items outside)
    (hx : c.count x ≠ 0) : st.has c x = true := by
  cases x with
  | scope s => exact h.present s hx
  | payload a => exact has_payload.mpr hx

/-- The objects that an object holds, counted once for each handle. -/
def contents (st : Store) (items : Allocation → List Value) (x : Object) : List Object :=
  (st.kept (x.handle items)).filterMap Held.object?

theorem filterMap_handles :
    (st.handles c items).filterMap Held.object? =
      (st.objects c).flatMap (st.contents items) := by
  rw [handles, List.filterMap_flatMap]
  rfl

end Store

end ScopeChain
