import ScopeChain.Proofs.Handles

/-!
Memory while handles are dropped.  Every way to drop handles lowers counts and releases objects with
their last handle, so each follows the counts exactly and takes from the store what was released.
-/

namespace ScopeChain

/-- The store and the census while handles are dropped, and what was released so far, the last
object first. -/
structure Memory where
  store : Store
  census : Census
  released : List Object

namespace Memory

variable {st : Store} {c : Census} {items : Allocation → List Value} {outside dropped : List Held}
  {m : Memory} {waiting waiting' rest : List Object} {x : Object} {h : Held}

def tally (m : Memory) : Tally Object :=
  ⟨m.census.count, m.released⟩

/-- Drop a handle that is not the last one. -/
def lower (m : Memory) (x : Object) : Memory :=
  { m with census := m.census.drop x }

/-- Drop the last handle to an object, and release the object. -/
def release (m : Memory) (x : Object) : Memory :=
  ⟨m.store.without x, m.census.drop x, x :: m.released⟩

/-- The census is exact, and the store is the first one without what was released. -/
structure Follows (st : Store) (c : Census) (items : Allocation → List Value)
    (outside : List Held) (m : Memory) (waiting : List Object) : Prop where
  exact : Tally.Exact (st.contents items) (st.objects c) (outside.filterMap Held.object?) m.tally
    waiting
  frames : ∀ s, m.store.frame? s = if .scope s ∈ m.released then none else st.frame? s

@[simp] theorem tally_lower (m : Memory) (x : Object) : (m.lower x).tally = m.tally.lower x := by
  simp only [tally, lower, Tally.lower]
  congr 1
  funext y
  exact m.census.count_drop x y

@[simp] theorem tally_release (m : Memory) (x : Object) :
    (m.release x).tally = m.tally.release x := by
  have hlower := congrArg Tally.count (tally_lower m x)
  simp only [tally, release, Tally.release]
  congr 1

/-- What an object holds stays in the store as long as the object is not released. -/
theorem kept_of_frames
    (hframes : ∀ s, m.store.frame? s = if .scope s ∈ m.released then none else st.frame? s)
    (hx : x ∉ m.released) : m.store.kept (x.handle items) = st.kept (x.handle items) := by
  cases x with
  | scope s => simp only [Store.kept, Object.handle, hframes, if_neg hx]
  | payload a => rfl

namespace Follows

theorem start (h : st.Counted c items (dropped ++ outside)) :
    Follows st c items outside ⟨st, c, []⟩ (dropped.filterMap Held.object?) where
  exact :=
    { counted := by
        intro x
        have hleft : (Memory.tally ⟨st, c, []⟩).left (st.objects c) = st.objects c := by
          simp [Tally.left, tally]
        rw [hleft, ← Store.filterMap_handles, ← List.filterMap_append, ← List.filterMap_append]
        exact h.counted x
      present := by
        intro x hx
        rw [Tally.mem_left, Store.mem_objects]
        exact ⟨h.has_of_count hx, by simp [tally]⟩
      once := List.nodup_nil
      known := by simp [tally] }
  frames s := by simp

theorem perm (hm : Follows st c items outside m waiting) (hperm : waiting.Perm waiting') :
    Follows st c items outside m waiting' :=
  ⟨hm.exact.perm hperm, hm.frames⟩

theorem lower (hm : Follows st c items outside m (x :: rest)) :
    Follows st c items outside (m.lower x) rest where
  exact := by
    rw [tally_lower]
    exact hm.exact.lower (.refl _)
  frames := hm.frames

theorem release (hm : Follows st c items outside m (x :: rest)) (hlast : m.census.count x = 1) :
    Follows st c items outside (m.release x) (st.contents items x ++ rest) where
  exact := by
    rw [tally_release]
    exact hm.exact.release (st.nodup_objects c) (.refl _) hlast
  frames s := by
    cases x with
    | scope t =>
        simp only [Memory.release, Store.without, Store.frame?_release, hm.frames, List.mem_cons,
          Object.scope.injEq]
        by_cases hts : t = s
        · simp [hts]
        · simp [hts, Ne.symm hts]
    | payload a =>
        simp only [Memory.release, Store.without, hm.frames, List.mem_cons, reduceCtorEq, false_or]

/-- What a waiting handle holds is in the store as it was at first. -/
theorem kept_eq (hm : Follows st c items outside m (x :: rest)) (hx : h.object? = some x)
    (hagrees : h.Agrees items) : m.store.kept h = st.kept (x.handle items) := by
  rw [Held.eq_handle hx hagrees]
  exact kept_of_frames hm.frames (Tally.mem_left.mp (hm.exact.mem_left (.refl _))).2

/-- Every scope that is still held is live. -/
theorem isLive (hm : Follows st c items outside m waiting) {s : Scope}
    (hs : m.census.ofScope s ≠ 0) : m.store.isLive s = true := by
  obtain ⟨hmem, hnot⟩ := Tally.mem_left.mp (hm.exact.present (.scope s) hs)
  rw [Store.isLive, hm.frames, if_neg (show Object.scope s ∉ m.released from hnot)]
  exact Store.mem_objects.mp hmem

end Follows

/-- The memory after some handles were dropped in a store, in whatever order. -/
structure Outcome (st : Store) (c : Census) (items : Allocation → List Value)
    (dropped : List Held) (m : Memory) : Prop where
  settles : Tally.Settles (st.contents items) ⟨c.count, []⟩ (dropped.filterMap Held.object?) m.tally
  frames : ∀ s, m.store.frame? s = if .scope s ∈ m.released then none else st.frame? s

namespace Outcome

variable {m' : Memory}

theorem exact (hm : Outcome st c items dropped m) (hc : st.Counted c items (dropped ++ outside)) :
    Tally.Exact (st.contents items) (st.objects c) (outside.filterMap Held.object?) m.tally [] :=
  hm.settles.exact (st.nodup_objects c) (Follows.start hc).exact

/-- The heap in the end is what was there without what was released. -/
theorem has_iff (hm : Outcome st c items dropped m) (hc : st.Counted c items (dropped ++ outside)) :
    m.store.has m.census x = true ↔ st.has c x = true ∧ x ∉ m.released := by
  cases x with
  | scope s =>
      simp only [Store.has, Store.isLive, hm.frames s]
      by_cases hs : Object.scope s ∈ m.released <;> simp [hs]
  | payload a =>
      constructor
      · intro ha
        have hleft := (hm.exact hc).present (.payload a) (Store.has_payload.mp ha)
        rwa [Tally.mem_left, Store.mem_objects] at hleft
      · rintro ⟨ha, hnot⟩
        have hcount : m.tally.count (.payload a) ≠ 0 :=
          hm.settles.count_ne_zero (Store.has_payload.mp ha) hnot
        exact Store.has_payload.mpr hcount

/-- What was released was in the heap and is not in it any longer. -/
theorem mem_released_iff (hm : Outcome st c items dropped m)
    (hc : st.Counted c items (dropped ++ outside)) :
    x ∈ m.released ↔ st.has c x = true ∧ m.store.has m.census x = false := by
  rw [← Bool.not_eq_true, hm.has_iff hc, not_and, not_not]
  refine ⟨fun hx => ⟨?_, fun _ => hx⟩, fun h => h.2 h.1⟩
  exact Store.mem_objects.mp ((hm.exact hc).known x hx)

theorem objects_perm (hm : Outcome st c items dropped m)
    (hc : st.Counted c items (dropped ++ outside)) :
    (m.store.objects m.census).Perm (m.tally.left (st.objects c)) := by
  rw [List.perm_ext_iff_of_nodup (Store.nodup_objects _ _) (Tally.nodup_left (st.nodup_objects c))]
  intro x
  rw [Store.mem_objects, hm.has_iff hc, Tally.mem_left, Store.mem_objects]
  rfl

/-- The census is still right, with the handles outside that were not dropped. -/
theorem counted (hm : Outcome st c items dropped m) (hc : st.Counted c items (dropped ++ outside)) :
    m.store.Counted m.census items outside where
  counted x := by
    have hcount := (hm.exact hc).counted x
    have hcongr : (m.tally.left (st.objects c)).flatMap (m.store.contents items) =
        (m.tally.left (st.objects c)).flatMap (st.contents items) := by
      apply List.flatMap_congr
      intro y hy
      rw [Store.contents, kept_of_frames hm.frames (Tally.mem_left.mp hy).2, Store.contents]
    have hperm := (hm.objects_perm hc).flatMap_right (m.store.contents items)
    rw [Held.countTo, List.filterMap_append, Store.filterMap_handles, List.count_append,
      hperm.count_eq, hcongr, ← List.count_append]
    exact hcount
  present s hs := by
    have hleft := (hm.exact hc).present (.scope s) hs
    rw [Tally.mem_left, Store.mem_objects] at hleft
    exact (hm.has_iff hc (x := .scope s)).mpr hleft
  outside_agrees h hh := hc.outside_agrees h (List.mem_append_right _ hh)
  kept_agrees x h hh := by
    by_cases hx : x ∈ m.released
    · cases x with
      | scope s => simp [Store.kept, Object.handle, hm.frames, hx] at hh
      | payload a => exact hc.kept_agrees (.payload a) h hh
    · rw [kept_of_frames hm.frames hx] at hh
      exact hc.kept_agrees x h hh

/-- Nothing that is still held, outside or in the heap, was released. -/
theorem not_released (hm : Outcome st c items dropped m)
    (hc : st.Counted c items (dropped ++ outside))
    (hh : h ∈ outside ++ m.store.handles m.census items) (hx : h.object? = some x) :
    x ∉ m.released := by
  have hcount : m.census.count x ≠ 0 := by
    rw [(hm.counted hc).counted]
    exact Nat.pos_iff_ne_zero.mp
      (List.count_pos_iff.mpr (List.mem_filterMap.mpr ⟨h, hh, hx⟩))
  exact (Tally.mem_left.mp ((hm.exact hc).present x hcount)).2

/-- Two ways to drop the same handles release the same objects. -/
theorem released_perm (hm : Outcome st c items dropped m) (hm' : Outcome st c items dropped m')
    (hc : st.Counted c items (dropped ++ outside)) : m.released.Perm m'.released :=
  hm.settles.released_perm hm'.settles (st.nodup_objects c) (Follows.start hc).exact

theorem frame?_eq (hm : Outcome st c items dropped m) (hm' : Outcome st c items dropped m')
    (hc : st.Counted c items (dropped ++ outside)) (s : Scope) :
    m.store.frame? s = m'.store.frame? s := by
  simp only [hm.frames, hm'.frames, (hm.released_perm hm' hc).mem_iff]

theorem count_eq (hm : Outcome st c items dropped m) (hm' : Outcome st c items dropped m')
    (hc : st.Counted c items (dropped ++ outside)) (x : Object) :
    m.census.count x = m'.census.count x :=
  congrFun (hm.settles.count_eq hm'.settles (st.nodup_objects c) (Follows.start hc).exact) x

end Outcome

end Memory

end ScopeChain
