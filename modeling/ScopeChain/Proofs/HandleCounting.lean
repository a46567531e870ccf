import Mathlib.Data.List.Basic
import Mathlib.Data.List.Flatten
import Mathlib.Data.List.Nodup
import Mathlib.Data.List.Perm.Basic

/-!
Counting handles.  Objects hold handles to objects, in circles or not.  Handles that wait are
dropped one by one: the last handle to an object releases it, and the handles that it held wait in
turn.  Whichever handle is picked each time, the same objects are released and the same counts are
left.
-/

namespace ScopeChain

/-- How many handles there are to each object, and what was released so far. -/
structure Tally (α : Type) where
  count : α → Nat
  /-- The released objects, the last one first. -/
  released : List α

namespace Tally

variable {α : Type} [DecidableEq α] {contents : α → List α} {all outside : List α}
  {t t' t₁ t₂ : Tally α} {waiting rest : List α} {x y : α}

def lower (t : Tally α) (x : α) : Tally α :=
  { t with count := fun y => if y = x then t.count y - 1 else t.count y }

/-- The last handle to an object goes, and the object with it. -/
def release (t : Tally α) (x : α) : Tally α :=
  { t.lower x with released := x :: t.released }

def left (t : Tally α) (all : List α) : List α :=
  all.filter (· ∉ t.released)

/-- The waiting handles are dropped, in some order, until none waits. -/
inductive Settles (contents : α → List α) : Tally α → List α → Tally α → Prop
  | done (t : Tally α) : Settles contents t [] t
  | shared {t t' : Tally α} {waiting rest : List α} {x : α} (pick : waiting.Perm (x :: rest))
      (count : t.count x ≠ 1) (next : Settles contents (t.lower x) rest t') :
      Settles contents t waiting t'
  | last {t t' : Tally α} {waiting rest : List α} {x : α} (pick : waiting.Perm (x :: rest))
      (count : t.count x = 1) (next : Settles contents (t.release x) (contents x ++ rest) t') :
      Settles contents t waiting t'

/-- The counts are those of the handles that wait, that are kept outside, and that are in the
objects left. -/
structure Exact (contents : α → List α) (all outside : List α) (t : Tally α) (waiting : List α) :
    Prop where
  counted : ∀ x, t.count x = (waiting ++ outside ++ (t.left all).flatMap contents).count x
  present : ∀ x, t.count x ≠ 0 → x ∈ t.left all
  once : t.released.Nodup
  known : ∀ x ∈ t.released, x ∈ all

theorem lower_count (t : Tally α) (x y : α) :
    (t.lower x).count y = if y = x then t.count y - 1 else t.count y := rfl

theorem release_count (t : Tally α) (x y : α) :
    (t.release x).count y = if y = x then t.count y - 1 else t.count y := rfl

theorem count_ne_zero_of_lower (h : (t.lower x).count y ≠ 0) : t.count y ≠ 0 := by
  rw [lower_count] at h
  split at h <;> omega

theorem mem_left : x ∈ t.left all ↔ x ∈ all ∧ x ∉ t.released := by
  simp [left]

theorem nodup_left (hall : all.Nodup) : (t.left all).Nodup :=
  hall.filter _

/-- Releasing an object takes it, and nothing else, from what is left. -/
theorem left_perm_cons (hall : all.Nodup) (hx : x ∈ t.left all) :
    (t.left all).Perm (x :: (t.release x).left all) := by
  have herase : (t.release x).left all = (t.left all).erase x := by
    rw [(nodup_left hall).erase_eq_filter, left, left, List.filter_filter]
    apply List.filter_congr
    intro y _
    by_cases hy : y = x <;> simp [release, lower, hy]
  rw [herase]
  exact List.perm_cons_erase hx

namespace Exact

theorem count_pos (h : Exact contents all outside t waiting) (hpick : waiting.Perm (x :: rest)) :
    0 < t.count x := by
  rw [h.counted, List.count_append, List.count_append, hpick.count_eq, List.count_cons_self]
  omega

theorem mem_left (h : Exact contents all outside t waiting) (hpick : waiting.Perm (x :: rest)) :
    x ∈ t.left all :=
  h.present x (Nat.pos_iff_ne_zero.mp (h.count_pos hpick))

theorem perm (h : Exact contents all outside t waiting) (hperm : waiting.Perm rest) :
    Exact contents all outside t rest where
  counted y := by
    rw [h.counted]
    exact ((hperm.append_right _).append_right _).count_eq y
  present := h.present
  once := h.once
  known := h.known

/-- Dropping a handle leaves the counts exact. -/
theorem lower (h : Exact contents all outside t waiting) (hpick : waiting.Perm (x :: rest)) :
    Exact contents all outside (t.lower x) rest where
  counted y := by
    have hcount := h.counted y
    have hleft : (t.lower x).left all = t.left all := rfl
    rw [List.count_append, List.count_append, hpick.count_eq, List.count_cons] at hcount
    rw [lower_count, hleft, List.count_append, List.count_append, hcount]
    by_cases hyx : y = x
    · subst hyx
      simp only [beq_self_eq_true, if_true]
      omega
    · have hne : (x == y) = false := by simpa using Ne.symm hyx
      simp [hne, hyx]
  present y hy := h.present y (count_ne_zero_of_lower hy)
  once := h.once
  known := h.known

/-- Releasing an object with its last handle leaves the counts exact. -/
theorem release (h : Exact contents all outside t waiting) (hall : all.Nodup)
    (hpick : waiting.Perm (x :: rest)) (hlast : t.count x = 1) :
    Exact contents all outside (t.release x) (contents x ++ rest) where
  counted y := by
    have hcount := (h.lower hpick).counted y
    have hleft : (t.lower x).left all = t.left all := rfl
    have hflat := (left_perm_cons hall (h.mem_left hpick)).flatMap_right contents
    rw [hleft, List.count_append, List.count_append, hflat.count_eq, List.flatMap_cons,
      List.count_append] at hcount
    change (t.lower x).count y = _
    rw [hcount]
    simp only [List.count_append]
    omega
  present y hy := by
    rw [release_count] at hy
    by_cases hyx : y = x
    · subst hyx
      simp [hlast] at hy
    · rw [if_neg hyx] at hy
      have hmem := h.present y hy
      rw [Tally.mem_left] at hmem ⊢
      exact ⟨hmem.1, by simp [Tally.release, hyx, hmem.2]⟩
  once := List.nodup_cons.mpr ⟨(Tally.mem_left.mp (h.mem_left hpick)).2, h.once⟩
  known y hy := by
    rcases List.mem_cons.mp hy with rfl | hy
    · exact (Tally.mem_left.mp (h.mem_left hpick)).1
    · exact h.known y hy

end Exact

namespace Settles

/-- The order of the waiting handles does not matter. -/
theorem perm (h : Settles contents t waiting t') (hperm : waiting.Perm rest) :
    Settles contents t rest t' := by
  cases h with
  | done =>
      obtain rfl := hperm.nil_eq
      exact .done t
  | shared pick count next => exact .shared (hperm.symm.trans pick) count next
  | last pick count next => exact .last (hperm.symm.trans pick) count next

/-- The counts are exact when no handle waits any longer. -/
theorem exact (h : Settles contents t waiting t') (hall : all.Nodup)
    (he : Exact contents all outside t waiting) : Exact contents all outside t' [] := by
  induction h with
  | done => exact he
  | shared pick _ _ ih => exact ih (he.lower pick)
  | last pick count _ ih => exact ih (he.release hall pick count)

theorem released_subset (h : Settles contents t waiting t') (hx : x ∈ t.released) :
    x ∈ t'.released := by
  induction h with
  | done => exact hx
  | shared _ _ _ ih => exact ih hx
  | last _ _ _ ih => exact ih (List.mem_cons_of_mem _ hx)

/-- An object whose last handle is dropped is released. -/
theorem released_of_last (h : Settles contents t [x] t') (hlast : t.count x = 1) :
    x ∈ t'.released := by
  cases h with
  | shared pick count _ =>
      obtain rfl := List.mem_singleton.mp (pick.mem_iff.mpr List.mem_cons_self)
      exact absurd hlast count
  | last pick _ next =>
      obtain rfl := List.mem_singleton.mp (pick.mem_iff.mpr List.mem_cons_self)
      exact next.released_subset List.mem_cons_self

/-- An object loses its last handle only by being released. -/
theorem count_ne_zero (h : Settles contents t waiting t') (hx : t.count x ≠ 0)
    (hleft : x ∉ t'.released) : t'.count x ≠ 0 := by
  induction h with
  | done => exact hx
  | @shared t t' _ _ y _ count _ ih =>
      apply ih _ hleft
      rw [lower_count]
      split
      · subst x
        omega
      · exact hx
  | @last t t' _ _ y _ count next ih =>
      by_cases hxy : x = y
      · subst hxy
        exact absurd (next.released_subset (by simp [Tally.release])) hleft
      · exact ih (by rwa [release_count, if_neg hxy]) hleft

/-- Objects that are not released and whose handles are held outside or by one another are never
released. -/
theorem not_released_of_kept (h : Settles contents t waiting t') (hall : all.Nodup)
    (he : Exact contents all outside t waiting) (keep : α → Bool)
    (hkept : ∀ x ∈ all, keep x = true → t.count x ≠ 0 →
      0 < (outside ++ (all.filter keep).flatMap contents).count x)
    (hleft : ∀ x, keep x = true → x ∉ t.released) : ∀ x, keep x = true → x ∉ t'.released := by
  induction h with
  | done => exact hleft
  | @shared t t' _ _ y pick _ _ ih =>
      apply ih (he.lower pick) _ hleft
      intro x hx hk hcount
      exact hkept x hx hk (count_ne_zero_of_lower hcount)
  | @last t t' _ rest y pick count _ ih =>
      -- The handle that is dropped comes on top of the one that keeps the object.
      have hy : keep y = false := by
        by_contra hk
        rw [Bool.not_eq_false] at hk
        have hmem := (Tally.mem_left.mp (he.mem_left pick)).1
        have hheld := hkept y hmem hk (by omega)
        have hsub : (all.filter keep).Sublist (t.left all) := by
          apply List.monotone_filter_right
          intro x hx
          simpa using hleft x hx
        have hle := (hsub.flatMap contents).count_le y
        have hcount := he.counted y
        rw [List.count_append] at hheld
        rw [List.count_append, List.count_append, pick.count_eq, List.count_cons_self] at hcount
        omega
      apply ih (he.release hall pick count)
      · intro x hx hk hcount
        exact hkept x hx hk (count_ne_zero_of_lower hcount)
      · intro x hk
        have hxy : x ≠ y := by
          rintro rfl
          rw [hk] at hy
          exact Bool.noConfusion hy
        simpa [Tally.release, hxy] using hleft x hk

/-- What one order releases, each other order releases too. -/
theorem released_of_released (h₁ : Settles contents t waiting t₁)
    (h₂ : Settles contents t waiting t₂) (hall : all.Nodup)
    (he : Exact contents all outside t waiting) (hx : x ∈ t₁.released) : x ∈ t₂.released := by
  by_contra hnot
  have hend := h₂.exact hall he
  refine h₁.not_released_of_kept hall he (fun y => y ∉ t₂.released) ?_ ?_ x (by simpa) hx
  · intro y _ hy hcount
    have hpos := h₂.count_ne_zero hcount (by simpa using hy)
    rw [hend.counted, List.nil_append] at hpos
    exact Nat.pos_of_ne_zero hpos
  · intro y hy hmem
    exact of_decide_eq_true hy (h₂.released_subset hmem)

/-- The order in which the waiting handles are picked does not matter. -/
theorem released_perm (h₁ : Settles contents t waiting t₁) (h₂ : Settles contents t waiting t₂)
    (hall : all.Nodup) (he : Exact contents all outside t waiting) :
    t₁.released.Perm t₂.released := by
  rw [List.perm_ext_iff_of_nodup (h₁.exact hall he).once (h₂.exact hall he).once]
  intro x
  exact ⟨h₁.released_of_released h₂ hall he, h₂.released_of_released h₁ hall he⟩

/-- The counts in the end do not depend on the order either. -/
theorem count_eq (h₁ : Settles contents t waiting t₁) (h₂ : Settles contents t waiting t₂)
    (hall : all.Nodup) (he : Exact contents all outside t waiting) : t₁.count = t₂.count := by
  have hperm := h₁.released_perm h₂ hall he
  have hleft : t₁.left all = t₂.left all := by
    apply List.filter_congr
    intro x _
    simp only [hperm.mem_iff]
  funext x
  rw [(h₁.exact hall he).counted, (h₂.exact hall he).counted, hleft]

end Settles

end Tally

end ScopeChain
