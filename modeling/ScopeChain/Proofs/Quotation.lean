import ScopeChain.Proofs.Delimited
import ScopeChain.Text.Quoted

/-!
Quoted texts are told apart.  A double quote and a backslash never stand for themselves inside a
quoted text, so a backslash always begins an escape and a double quote always ends the text.
-/

namespace ScopeChain.Text

/-! ### Hexadecimals -/

theorem digitChar_inj {i j : Nat} (hi : i < 16) (hj : j < 16)
    (h : i.digitChar = j.digitChar) : i = j := by
  have : ∀ i < 16, ∀ j < 16, i.digitChar = j.digitChar → i = j := by decide
  exact this i hi j hj h

theorem toDigits_inj {m n : Nat} (h : Nat.toDigits 16 m = Nat.toDigits 16 n) : m = n := by
  induction m using Nat.strongRecOn generalizing n with
  | ind m ih =>
      rcases Nat.lt_or_ge m 16 with hm | hm <;> rcases Nat.lt_or_ge n 16 with hn | hn
      · rw [Nat.toDigits_of_lt_base hm, Nat.toDigits_of_lt_base hn] at h
        exact digitChar_inj hm hn (List.head_eq_of_cons_eq h)
      · rw [Nat.toDigits_of_lt_base hm, Nat.toDigits_of_base_le (by decide) hn] at h
        change [] ++ [_] = _ ++ [_] at h
        exact absurd (List.append_inj' h rfl).1.symm Nat.toDigits_ne_nil
      · rw [Nat.toDigits_of_lt_base hn, Nat.toDigits_of_base_le (by decide) hm] at h
        change _ ++ [_] = [] ++ [_] at h
        exact absurd (List.append_inj' h rfl).1 Nat.toDigits_ne_nil
      · rw [Nat.toDigits_of_base_le (by decide) hm, Nat.toDigits_of_base_le (by decide) hn] at h
        obtain ⟨hdiv, hmod⟩ := List.append_inj' h rfl
        have hdiv := ih (m / 16) (by omega) hdiv
        have hmod := digitChar_inj (Nat.mod_lt m (by decide)) (Nat.mod_lt n (by decide))
          (List.head_eq_of_cons_eq hmod)
        omega

theorem exists_digitChar_of_mem_toDigits {c : Char} {n : Nat} (h : c ∈ Nat.toDigits 16 n) :
    ∃ d : Nat, c = d.digitChar := by
  induction n using Nat.strongRecOn with
  | ind n ih =>
      rcases Nat.lt_or_ge n 16 with hn | hn
      · rw [Nat.toDigits_of_lt_base hn] at h
        exact ⟨n, List.mem_singleton.mp h⟩
      · rw [Nat.toDigits_of_base_le (by decide) hn, List.mem_append] at h
        rcases h with h | h
        · exact ih (n / 16) (by omega) h
        · exact ⟨n % 16, List.mem_singleton.mp h⟩

theorem closing_not_mem_toDigits (n : Nat) : '\x7d' ∉ Nat.toDigits 16 n := by
  intro h
  obtain ⟨d, hd⟩ := exists_digitChar_of_mem_toDigits h
  exact Nat.digitChar_ne '\x7d' (by decide) hd.symm

/-! ### Escapes -/

/-- The characters with a letter of their own behind the backslash, and the letters. -/
def escapeLetters : List (Char × Char) :=
  [('"', '"'), ('\\', '\\'), ('\n', 'n'), ('\r', 'r'), ('\t', 't'), ('\x00', '0')]

/-- The ways in which a character is written inside a quoted text. -/
inductive Escaped (c : Char) : List Char → Prop where
  | shown (hquote : c ≠ '"') (hbackslash : c ≠ '\\') : Escaped c [c]
  | letter {d : Char} (h : (c, d) ∈ escapeLetters) : Escaped c ['\\', d]
  | codePoint : Escaped c (codePointEscape c)

theorem escaped_escape (c : Char) : Escaped c (escape c) := by
  unfold escape
  split_ifs with hquote hbackslash hlineFeed hreturn htab hnull
  · exact .letter (by simp [hquote, escapeLetters])
  · exact .letter (by simp [hbackslash, escapeLetters])
  · exact .letter (by simp [hlineFeed, escapeLetters])
  · exact .letter (by simp [hreturn, escapeLetters])
  · exact .letter (by simp [htab, escapeLetters])
  · exact .letter (by simp [hnull, escapeLetters])
  · exact .codePoint
  · exact .shown hquote hbackslash

theorem eq_of_escapeLetters {c c' d : Char} (h : (c, d) ∈ escapeLetters)
    (h' : (c', d) ∈ escapeLetters) : c = c' := by
  have : ∀ p ∈ escapeLetters, ∀ q ∈ escapeLetters, p.2 = q.2 → p.1 = q.1 := by decide
  exact this _ h _ h' rfl

theorem not_mem_escapeLetters (c : Char) : (c, 'u') ∉ escapeLetters := by
  have : ∀ p ∈ escapeLetters, p.2 ≠ 'u' := by decide
  exact fun h => this _ h rfl

theorem codePointEscape_append (c : Char) (s : List Char) :
    codePointEscape c ++ s = '\\' :: 'u' :: '\x7b' :: (Nat.toDigits 16 c.toNat ++ '\x7d' :: s) := by
  simp [codePointEscape]

theorem Escaped.toldApart {c c' : Char} {u v s t : List Char} (hu : Escaped c u)
    (hv : Escaped c' v) (h : u ++ s = v ++ t) : c = c' ∧ s = t := by
  -- The first character tells a shown character from an escape, the second one letters from code
  -- points.
  cases hu with
  | shown _ hc =>
      cases hv with
      | shown => exact List.cons.inj h
      | letter => exact absurd (List.head_eq_of_cons_eq h) hc
      | codePoint => exact absurd (List.head_eq_of_cons_eq h) hc
  | letter hd =>
      cases hv with
      | shown _ hc' => exact absurd (List.head_eq_of_cons_eq h).symm hc'
      | letter hd' =>
          obtain ⟨-, h⟩ := List.cons.inj h
          obtain ⟨rfl, hst⟩ := List.cons.inj h
          exact ⟨eq_of_escapeLetters hd hd', hst⟩
      | codePoint =>
          rw [codePointEscape_append] at h
          obtain ⟨-, h⟩ := List.cons.inj h
          obtain ⟨rfl, -⟩ := List.cons.inj h
          exact absurd hd (not_mem_escapeLetters c)
  | codePoint =>
      rw [codePointEscape_append] at h
      cases hv with
      | shown _ hc' => exact absurd (List.head_eq_of_cons_eq h).symm hc'
      | letter hd' =>
          obtain ⟨-, h⟩ := List.cons.inj h
          obtain ⟨rfl, -⟩ := List.cons.inj h
          exact absurd hd' (not_mem_escapeLetters c')
      | codePoint =>
          rw [codePointEscape_append] at h
          simp only [List.cons.injEq, true_and] at h
          obtain ⟨hdigits, hst⟩ :=
            eq_of_append_cons (closing_not_mem_toDigits _) (closing_not_mem_toDigits _) h
          exact ⟨Char.toNat_inj.mp (toDigits_inj hdigits), hst⟩

theorem Escaped.append_ne {c : Char} {u : List Char} (hu : Escaped c u) (s t : List Char) :
    u ++ s ≠ '"' :: t := by
  intro h
  cases hu with
  | shown hquote => exact hquote (List.head_eq_of_cons_eq h)
  | letter => exact absurd (List.head_eq_of_cons_eq h) (by decide)
  | codePoint => exact absurd (List.head_eq_of_cons_eq h) (by decide)

/-- A quoted text is told from all others, whatever stands behind it. -/
theorem toldApart_quote (x y : String) :
    ToldApart (fun x => (quote x).toList) Eq x y := by
  intro s t h
  simp only [toList_quote, List.cons_append, List.append_assoc] at h
  obtain ⟨-, h⟩ := List.cons.inj h
  obtain ⟨hxy, hst⟩ := forall₂_of_flatMap (fun c => (escaped_escape c).append_ne)
    (fun c _ d _ _ _ => (escaped_escape c).toldApart (escaped_escape d)) h
  rw [List.forall₂_eq_eq_eq] at hxy
  exact ⟨String.toList_inj.mp hxy, hst⟩

end ScopeChain.Text
