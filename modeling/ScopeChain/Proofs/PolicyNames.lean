import Mathlib.Data.List.Forall2
import ScopeChain.Policy
import ScopeChain.Proofs.Trimming

/-!
The texts that name a policy.  A text names one when it is one of four words but for the case of its
ASCII letters and for blanks around it.  Only ASCII letters have a case here, so no other character
stands for a letter of these words.
-/

namespace ScopeChain

namespace Text

/-! ### Case -/

/-- The same character, or the two cases of one ASCII letter. -/
def SameButCase (c d : Char) : Prop :=
  c = d ∨ ∃ i < 26, (c.toNat = 'A'.toNat + i ∧ d.toNat = 'a'.toNat + i) ∨
    (c.toNat = 'a'.toNat + i ∧ d.toNat = 'A'.toNat + i)

/-- Texts that differ at most in the case of their ASCII letters. -/
def EqualButCase (s t : List Char) : Prop :=
  List.Forall₂ SameButCase s t

theorem toNat_toLower (c : Char) :
    c.toLower.toNat = if 65 ≤ c.toNat ∧ c.toNat ≤ 90 then c.toNat + 32 else c.toNat := by
  have hle : c.val ≥ 'A'.val ∧ c.val ≤ 'Z'.val ↔ 65 ≤ c.toNat ∧ c.toNat ≤ 90 := by
    rw [ge_iff_le, UInt32.le_iff_toNat_le, UInt32.le_iff_toNat_le]
    exact Iff.rfl
  unfold Char.toLower
  by_cases h : c.val ≥ 'A'.val ∧ c.val ≤ 'Z'.val
  · have hsum : (c.val + ('a'.val - 'A'.val)).toNat = c.toNat + 32 := by
      have hc := (hle.mp h).2
      rw [UInt32.toNat_add]
      exact Nat.mod_eq_of_lt (by change c.toNat + 32 < 2 ^ 32; omega)
    rw [dif_pos h, if_pos (hle.mp h)]
    exact hsum
  · rw [dif_neg h, if_neg (mt hle.mpr h)]

theorem toLower_eq_toLower_iff {c d : Char} : c.toLower = d.toLower ↔ SameButCase c d := by
  have hA : 'A'.toNat = 65 := rfl
  have ha : 'a'.toNat = 97 := rfl
  rw [SameButCase, ← Char.toNat_inj, ← Char.toNat_inj, toNat_toLower, toNat_toLower, hA, ha]
  constructor
  · intro h
    split at h <;> split at h
    · exact .inl (by omega)
    · exact .inr ⟨c.toNat - 65, by omega, .inl ⟨by omega, by omega⟩⟩
    · exact .inr ⟨d.toNat - 65, by omega, .inr ⟨by omega, by omega⟩⟩
    · exact .inl h
  · rintro (h | ⟨i, hi, ⟨hc, hd⟩ | ⟨hc, hd⟩⟩)
    · rw [h]
    · rw [if_pos (by omega), if_neg (by omega)]
      omega
    · rw [if_neg (by omega), if_pos (by omega)]
      omega

theorem map_toLower_eq_iff {s t : List Char} :
    s.map Char.toLower = t.map Char.toLower ↔ EqualButCase s t := by
  rw [← List.forall₂_eq_eq_eq, List.forall₂_map_left_iff, List.forall₂_map_right_iff]
  simp only [toLower_eq_toLower_iff]
  exact Iff.rfl

theorem isBlank_toLower (c : Char) : isBlank c.toLower = isBlank c := by
  by_cases h : 65 ≤ c.toNat ∧ c.toNat ≤ 90
  · have hlower := toNat_toLower c
    rw [if_pos h] at hlower
    simp only [isBlank, blankRanges, hlower, List.any_cons, List.any_nil]
    rw [Bool.eq_iff_iff]
    simp
    omega
  · have hlower := toNat_toLower c
    rw [if_neg h, Char.toNat_inj] at hlower
    rw [hlower]

theorem trim_map_toLower (t : List Char) :
    trim (t.map Char.toLower) = (trim t).map Char.toLower := by
  have hblank : isBlank ∘ Char.toLower = isBlank := funext isBlank_toLower
  simp only [trim, List.dropWhile_map, ← List.map_reverse, hblank]

/-- A character of ASCII stays one, and what becomes one was one. -/
theorem toNat_toLower_lt_iff {c : Char} : c.toLower.toNat < 128 ↔ c.toNat < 128 := by
  rw [toNat_toLower]
  split <;> omega

end Text

namespace Policy

open Text

/-! ### Words -/

/-- A text that is a word but for blanks around it and for case. -/
def Spells (text word : String) : Prop :=
  ∃ core, Surrounds core text.toList ∧ EqualButCase core word.toList

/-- The characters beyond ASCII that the case folding of Unicode takes to an ASCII letter: the long
s and the sign of the unit kelvin. -/
def foldedToLetter : List Char :=
  ['\u017f', '\u212a']

/-- The word that a text is compared by. -/
def folded (text : String) : List Char :=
  (trim text.toList).map Char.toLower

/-- A word in small letters of ASCII, without blanks. -/
def IsPlain (word : String) : Prop :=
  ∀ c ∈ word.toList, c.toLower = c ∧ isBlank c = false ∧ c.toNat < 128

theorem isPlain_of_mem {word : String} (h : word ∈ strictWord :: createGlobalWords) :
    IsPlain word := by
  have hall : ∀ word ∈ strictWord :: createGlobalWords, (word.toList.all fun c =>
      c.toLower = c ∧ isBlank c = false ∧ c.toNat < 128) = true := by decide +kernel
  exact fun c hc => of_decide_eq_true (List.all_eq_true.mp (hall word h) c hc)

theorem folded_eq_iff {text word : String} (hword : IsPlain word) :
    folded text = word.toList ↔ Spells text word := by
  have hlower : word.toList.map Char.toLower = word.toList :=
    List.map_congr_left (fun c hc => (hword c hc).1) |>.trans (List.map_id _)
  have hcore : ∀ core, EqualButCase core word.toList → ∀ c ∈ core, isBlank c = false := by
    intro core h c hc
    rw [← map_toLower_eq_iff, hlower] at h
    have hmem : c.toLower ∈ word.toList := h ▸ List.mem_map_of_mem hc
    rw [← isBlank_toLower]
    exact (hword _ hmem).2.1
  constructor
  · intro h
    refine ⟨trim text.toList, surrounds_trim _, ?_⟩
    rw [← map_toLower_eq_iff, hlower]
    exact h
  · rintro ⟨core, htext, hequal⟩
    rw [folded, trim_of_surrounds (hcore core hequal) htext, map_toLower_eq_iff.mpr hequal, hlower]

/-! ### Reading a policy -/

theorem parse?_eq (text : String) :
    parse? text =
      if ∃ word ∈ createGlobalWords, folded text = word.toList then some .createGlobal
      else if folded text = strictWord.toList then some .strict
      else none := by
  have hmem : String.ofList (folded text) ∈ createGlobalWords ↔
      ∃ word ∈ createGlobalWords, folded text = word.toList := by
    constructor
    · intro h
      exact ⟨_, h, String.toList_ofList.symm⟩
    · rintro ⟨word, hword, h⟩
      rw [h, String.ofList_toList]
      exact hword
  have hstrict : String.ofList (folded text) = strictWord ↔ folded text = strictWord.toList := by
    rw [← String.toList_inj, String.toList_ofList]
  simp only [← hmem, ← hstrict]
  rfl

theorem parse?_congr {text other : String} (h : folded other = folded text) :
    parse? other = parse? text := by
  rw [parse?_eq, parse?_eq, h]

theorem parse?_eq_createGlobal_iff {text : String} :
    parse? text = some .createGlobal ↔ ∃ word ∈ createGlobalWords, Spells text word := by
  have hspells : (∃ word ∈ createGlobalWords, folded text = word.toList) ↔
      ∃ word ∈ createGlobalWords, Spells text word :=
    exists_congr fun word => and_congr_right fun hword =>
      folded_eq_iff (isPlain_of_mem (List.mem_cons_of_mem _ hword))
  rw [parse?_eq, ← hspells]
  split
  · rename_i h
    exact ⟨fun _ => h, fun _ => rfl⟩
  · rename_i h
    refine ⟨fun hread => ?_, fun hword => absurd hword h⟩
    split at hread <;> cases hread

theorem parse?_eq_strict_iff {text : String} :
    parse? text = some .strict ↔ Spells text strictWord := by
  have hother : ∀ word ∈ createGlobalWords, word.toList ≠ strictWord.toList := by decide +kernel
  rw [parse?_eq, ← folded_eq_iff (isPlain_of_mem List.mem_cons_self)]
  constructor
  · intro hread
    split at hread
    · cases hread
    · split at hread
      · assumption
      · cases hread
  · intro hstrict
    rw [if_neg, if_pos hstrict]
    rintro ⟨word, hword, h⟩
    exact hother word hword (h.symm.trans hstrict)

theorem parse?_eq_none_iff {text : String} :
    parse? text = none ↔ ∀ word ∈ strictWord :: createGlobalWords, ¬ Spells text word := by
  constructor
  · intro hnone word hword hspells
    rcases List.mem_cons.mp hword with rfl | hword
    · rw [parse?_eq_strict_iff.mpr hspells] at hnone
      cases hnone
    · rw [parse?_eq_createGlobal_iff.mpr ⟨word, hword, hspells⟩] at hnone
      cases hnone
  · intro hnot
    cases hread : parse? text with
    | none => rfl
    | some policy =>
        cases policy with
        | createGlobal =>
            obtain ⟨word, hword, hspells⟩ := parse?_eq_createGlobal_iff.mp hread
            exact absurd hspells (hnot word (List.mem_cons_of_mem _ hword))
        | strict => exact absurd (parse?_eq_strict_iff.mp hread) (hnot _ List.mem_cons_self)

/-- A word of a policy has neither blanks nor characters beyond ASCII. -/
theorem parse?_eq_none_of_mem {text : String} {c : Char} (hc : c ∈ trim text.toList)
    (hforeign : isBlank c = true ∨ 128 ≤ c.toNat) : parse? text = none := by
  rw [parse?_eq_none_iff]
  intro word hword hspells
  have hplain := isPlain_of_mem hword
  have hmem : c.toLower ∈ word.toList := by
    rw [← (folded_eq_iff hplain).mpr hspells]
    exact List.mem_map_of_mem hc
  obtain ⟨-, hblank, hascii⟩ := hplain _ hmem
  rw [isBlank_toLower] at hblank
  rw [toNat_toLower_lt_iff] at hascii
  rcases hforeign with h | h
  · rw [h] at hblank
    cases hblank
  · omega

/-- The policy that a text names: the one that creates globals exactly for its three words and the
strict one exactly for its word, each in whatever case and with whatever blanks around it.  So
neither blanks around a text nor the case of its ASCII letters count, and a text with a blank between
other characters, or with any character beyond ASCII that is not blank, names none. -/
theorem parse?_reads_words (text : String) :
    (parse? text = some .createGlobal ↔
        ∃ word ∈ ["permissive", "create-global", "create_global"], Spells text word) ∧
      (parse? text = some .strict ↔ Spells text "strict") ∧
      (parse? text = none ↔
        ∀ word ∈ ["strict", "permissive", "create-global", "create_global"],
          ¬ Spells text word) ∧
      (∀ other : String, Surrounds text.toList other.toList → parse? other = parse? text) ∧
      (∀ other : String, EqualButCase other.toList text.toList → parse? other = parse? text) ∧
      (∀ first c last, text.toList = first ++ c :: last → isBlank c = true →
        (∃ b ∈ first, isBlank b = false) → (∃ b ∈ last, isBlank b = false) →
        parse? text = none) ∧
      (∀ c ∈ text.toList, 128 ≤ c.toNat → isBlank c = false → parse? text = none) ∧
      ∀ c ∈ foldedToLetter, c ∈ text.toList → parse? text = none := by
  have hbeyond : ∀ c ∈ text.toList, 128 ≤ c.toNat → isBlank c = false → parse? text = none :=
    fun c hc hlarge hblank => parse?_eq_none_of_mem (mem_trim_of_not_blank hc hblank) (.inr hlarge)
  have hall : (foldedToLetter.all fun c => 128 ≤ c.toNat ∧ isBlank c = false) = true := by decide
  have hletters : ∀ c ∈ foldedToLetter, 128 ≤ c.toNat ∧ isBlank c = false :=
    fun c hc => of_decide_eq_true (List.all_eq_true.mp hall c hc)
  refine ⟨parse?_eq_createGlobal_iff, parse?_eq_strict_iff, parse?_eq_none_iff,
    fun other h => parse?_congr ?_, fun other h => parse?_congr ?_, ?_, hbeyond,
    fun c hc hmem => hbeyond c hmem (hletters c hc).1 (hletters c hc).2⟩
  · rw [folded, folded, trim_eq_trim_of_surrounds h]
  · rw [folded, folded, ← trim_map_toLower, ← trim_map_toLower, map_toLower_eq_iff.mpr h]
  · intro first c last htext hblank hfirst hlast
    refine parse?_eq_none_of_mem ?_ (.inl hblank)
    rw [htext]
    exact mem_trim_of_between hfirst hlast

/-- Blanks and case do not count, and a blank inside does. -/
theorem parse?_reads_word_between_blanks :
    parse? "create_global" = some .createGlobal ∧
      parse? "\u3000Create_GLOBAL\n" = some .createGlobal ∧ parse? "create global" = none ∧
      parse? "\u017ftrict" = none := by
  have hword : parse? "create_global" = some .createGlobal := by
    rw [(parse?_reads_words "create_global").1]
    refine ⟨"create_global", by decide, "create_global".toList, ⟨[], [], ?_, by simp, by simp⟩, ?_⟩
    · simp
    · exact List.forall₂_same.mpr fun c _ => .inl rfl
  obtain ⟨-, -, -, hblanks, -⟩ := parse?_reads_words "Create_GLOBAL"
  obtain ⟨-, -, -, -, hcase, -⟩ := parse?_reads_words "create_global"
  obtain ⟨-, -, -, -, -, hinner, -⟩ := parse?_reads_words "create global"
  obtain ⟨-, -, -, -, -, -, -, hletters⟩ := parse?_reads_words "\u017ftrict"
  refine ⟨hword, ?_, ?_, ?_⟩
  · rw [hblanks _ ⟨['\u3000'], ['\n'], by decide,
      List.forall_mem_singleton.mpr (by decide), List.forall_mem_singleton.mpr (by decide)⟩,
      ← hword]
    refine hcase _ (map_toLower_eq_iff.mp ?_)
    decide
  · exact hinner "create".toList ' ' "global".toList (by decide) (by decide)
      ⟨'c', by decide, by decide⟩ ⟨'g', by decide, by decide⟩
  · exact hletters '\u017f' (by decide) (by decide)

end Policy

end ScopeChain
