import Mathlib.Data.List.TakeWhile
import ScopeChain.Text.Blank

/-!
Trimmed texts.  What trimming removes on either side is blank, and a core without blanks is what it
leaves of any text that has only blanks around the core.  What stands between characters that are
not blank stays.
-/

namespace ScopeChain.Text

/-- A text with only blanks before and behind a core. -/
def Surrounds (core t : List Char) : Prop :=
  ∃ before after, t = before ++ core ++ after ∧ (∀ c ∈ before, isBlank c = true) ∧
    ∀ c ∈ after, isBlank c = true

theorem surrounds_trim (t : List Char) : Surrounds (trim t) t := by
  refine ⟨t.takeWhile isBlank, ((t.dropWhile isBlank).reverse.takeWhile isBlank).reverse, ?_,
    fun c hc => List.mem_takeWhile_imp hc, fun c hc => ?_⟩
  · rw [trim, List.append_assoc, ← List.reverse_append, List.takeWhile_append_dropWhile,
      List.reverse_reverse, List.takeWhile_append_dropWhile]
  · exact List.mem_takeWhile_imp (List.mem_reverse.mp hc)

theorem dropWhile_of_not_blank {t : List Char} (h : ∀ c ∈ t, isBlank c = false) :
    t.dropWhile isBlank = t := by
  cases t with
  | nil => rfl
  | cons c t => exact List.dropWhile_cons_of_neg (by simp [h c List.mem_cons_self])

/-- Blanks around a text are nothing to trimming. -/
theorem trim_eq_trim_of_surrounds {core t : List Char} (h : Surrounds core t) :
    trim t = trim core := by
  obtain ⟨before, after, rfl, hbefore, hafter⟩ := h
  have hafter' : ∀ c ∈ after.reverse, isBlank c = true :=
    fun c hc => hafter c (List.mem_reverse.mp hc)
  rw [trim, trim, List.append_assoc, List.dropWhile_append_of_pos hbefore, List.dropWhile_append]
  split
  · rename_i hempty
    rw [List.dropWhile_eq_nil_iff.mpr hafter, List.isEmpty_iff.mp hempty]
  · rw [List.reverse_append, List.dropWhile_append_of_pos hafter']

theorem trim_of_not_blank {t : List Char} (h : ∀ c ∈ t, isBlank c = false) : trim t = t := by
  have hreverse : ∀ c ∈ t.reverse, isBlank c = false := fun c hc => h c (List.mem_reverse.mp hc)
  rw [trim, dropWhile_of_not_blank h, dropWhile_of_not_blank hreverse, List.reverse_reverse]

theorem trim_of_surrounds {core t : List Char} (hcore : ∀ c ∈ core, isBlank c = false)
    (h : Surrounds core t) : trim t = core := by
  rw [trim_eq_trim_of_surrounds h, trim_of_not_blank hcore]

theorem trim_eq_iff {core t : List Char} (hcore : ∀ c ∈ core, isBlank c = false) :
    trim t = core ↔ Surrounds core t := by
  constructor
  · rintro rfl
    exact surrounds_trim t
  · exact trim_of_surrounds hcore

theorem mem_trim_of_not_blank {t : List Char} {c : Char} (hc : c ∈ t) (h : isBlank c = false) :
    c ∈ trim t := by
  obtain ⟨before, after, heq, hbefore, hafter⟩ := surrounds_trim t
  rw [heq, List.mem_append, List.mem_append] at hc
  rcases hc with (hc | hc) | hc
  · rw [hbefore c hc] at h
    cases h
  · exact hc
  · rw [hafter c hc] at h
    cases h

theorem exists_dropWhile_append {first : List Char} (h : ∃ c ∈ first, isBlank c = false)
    (rest : List Char) :
    ∃ kept, (first ++ rest).dropWhile isBlank = kept ++ rest := by
  refine ⟨first.dropWhile isBlank, ?_⟩
  rw [List.dropWhile_append, if_neg]
  intro hempty
  obtain ⟨c, hc, hblank⟩ := h
  have hall := List.dropWhile_eq_nil_iff.mp (List.isEmpty_iff.mp hempty) c hc
  rw [hblank] at hall
  cases hall

/-- What has a character that is not blank on either side is left by trimming. -/
theorem mem_trim_of_between {first last : List Char} {c : Char}
    (hfirst : ∃ b ∈ first, isBlank b = false) (hlast : ∃ b ∈ last, isBlank b = false) :
    c ∈ trim (first ++ c :: last) := by
  obtain ⟨kept, hkept⟩ := exists_dropWhile_append hfirst (c :: last)
  have hlast' : ∃ b ∈ last.reverse, isBlank b = false := by
    simpa only [List.mem_reverse] using hlast
  obtain ⟨kept', hkept'⟩ := exists_dropWhile_append hlast' (c :: kept.reverse)
  have hreverse : (kept ++ c :: last).reverse = last.reverse ++ c :: kept.reverse := by simp
  rw [trim, hkept, hreverse, hkept', List.mem_reverse]
  exact List.mem_append_right _ List.mem_cons_self

end ScopeChain.Text
