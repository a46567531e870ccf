import Mathlib.Data.Nat.Digits.Defs
import ScopeChain.Config
import ScopeChain.Proofs.Trimming

/-!
The configuration that variables ask for.  The two variables are read apart from each other: the
text of one decides its field and its warning, and nothing else of them.  A limit is a decimal
numeral between blanks whose value is positive and below `2 ^ 64`, so a limit is never zero and
never what is left of a greater number.
-/

namespace ScopeChain.Config

open Text

/-! ### Numerals -/

/-- The value of decimal digits, by the place of each. -/
def decimal (digits : List Char) : Nat :=
  Nat.ofDigits 10 (digits.reverse.map fun d => d.toNat - '0'.toNat)

/-- A decimal numeral of `n`: one or more digits, a plus sign before them or not, and only blanks
around. -/
def Denotes (text : String) (n : Nat) : Prop :=
  ∃ sign digits, Surrounds (sign ++ digits) text.toList ∧ (sign = [] ∨ sign = ['+']) ∧
    digits ≠ [] ∧ (∀ d ∈ digits, d.isDigit = true) ∧ decimal digits = n

theorem ofDigits_eq_decimal (digits : List Char) : ofDigits digits = decimal digits := by
  rw [decimal, Nat.ofDigits_eq_foldr, List.foldr_map, List.foldr_reverse, ofDigits]
  congr
  funext n d
  exact Nat.add_comm _ _

theorem isBlank_of_isDigit {c : Char} (h : c.isDigit = true) : isBlank c = false := by
  rw [Char.isDigit_iff_toNat] at h
  have h : 48 ≤ c.toNat ∧ c.toNat ≤ 57 := h
  simp [isBlank, blankRanges]
  omega

theorem exists_sign (t : List Char) :
    ∃ sign, (sign = [] ∨ sign = ['+']) ∧ t = sign ++ unsigned t := by
  unfold unsigned
  split
  · exact ⟨['+'], .inr rfl, rfl⟩
  · exact ⟨[], .inl rfl, rfl⟩

theorem unsigned_append {sign digits : List Char} (hsign : sign = [] ∨ sign = ['+'])
    (hdigits : ∀ d ∈ digits, d.isDigit = true) : unsigned (sign ++ digits) = digits := by
  rcases hsign with rfl | rfl
  · rw [List.nil_append]
    unfold unsigned
    split
    · exact absurd (hdigits '+' List.mem_cons_self) (by decide)
    · rfl
  · rfl

theorem isBlank_of_mem_numeral {sign digits : List Char} (hsign : sign = [] ∨ sign = ['+'])
    (hdigits : ∀ d ∈ digits, d.isDigit = true) : ∀ c ∈ sign ++ digits, isBlank c = false := by
  intro c hc
  rcases List.mem_append.mp hc with hc | hc
  · rcases hsign with rfl | rfl
    · cases hc
    · obtain rfl := List.mem_singleton.mp hc
      decide
  · exact isBlank_of_isDigit (hdigits c hc)

/-- What is left of a numeral without blanks and sign is its digits. -/
theorem denotes_iff {text : String} {n : Nat} :
    Denotes text n ↔ unsigned (trim text.toList) ≠ [] ∧
      (∀ d ∈ unsigned (trim text.toList), d.isDigit = true) ∧
      ofDigits (unsigned (trim text.toList)) = n := by
  constructor
  · rintro ⟨sign, digits, htext, hsign, hne, hdigits, rfl⟩
    rw [(trim_eq_iff (isBlank_of_mem_numeral hsign hdigits)).mpr htext,
      unsigned_append hsign hdigits]
    exact ⟨hne, hdigits, ofDigits_eq_decimal digits⟩
  · rintro ⟨hne, hdigits, rfl⟩
    obtain ⟨sign, hsign, htrim⟩ := exists_sign (trim text.toList)
    refine ⟨sign, unsigned (trim text.toList), ?_, hsign, hne, hdigits,
      (ofDigits_eq_decimal _).symm⟩
    rw [← htrim]
    exact surrounds_trim _

/-- The limits that are read are the positive numbers of 64 bits, each as it is. -/
theorem map_parseLimit?_eq_some_iff {text : String} {n : Nat} :
    (parseLimit? text).map UInt64.toNat = some n ↔ Denotes text n ∧ 1 ≤ n ∧ n < 2 ^ 64 := by
  rw [denotes_iff]
  dsimp only [parseLimit?]
  generalize unsigned (trim text.toList) = digits
  constructor
  · intro h
    split at h
    · rename_i hread
      obtain ⟨hne, hdigits, hpos, hlt⟩ := hread
      have hn : ofDigits digits = n := by
        rw [← UInt64.toNat_ofNat_of_lt' hlt]
        exact Option.some.inj h
      subst hn
      exact ⟨⟨hne, List.all_eq_true.mp hdigits, rfl⟩, hpos, hlt⟩
    · cases h
  · rintro ⟨⟨hne, hdigits, rfl⟩, hpos, hlt⟩
    rw [if_pos ⟨hne, List.all_eq_true.mpr hdigits, hpos, hlt⟩]
    exact congrArg some (UInt64.toNat_ofNat_of_lt' hlt)

theorem denotes_toString (n : Nat) : Denotes (toString n) n := by
  have hdigits : ∀ d ∈ Nat.toDigits 10 n, d.isDigit = true :=
    fun d hd => Nat.isDigit_of_mem_toDigits (by decide) (by decide) hd
  refine ⟨[], Nat.toDigits 10 n, ⟨[], [], ?_, by simp, by simp⟩, .inl rfl, Nat.toDigits_ne_nil,
    hdigits, ?_⟩
  · rw [Nat.toString_eq_ofList_toDigits, String.toList_ofList]
    simp
  · rw [← ofDigits_eq_decimal]
    exact Nat.ofDigitChars_ten_toDigits

/-! ### Fields and warnings -/

/-- What is reported about a variable: a warning with its text when it is set and not accepted, and
nothing otherwise. -/
def Warned (raw? : Option String) (accepted : String → Prop) (warning : String → Event)
    (warnings : List Event) : Prop :=
  (∀ raw, raw? = some raw → ¬ accepted raw → warnings = [warning raw]) ∧
    ((∀ raw, raw? = some raw → accepted raw) → warnings = [])

/-- The warnings of a variable whose text is read by `parse`. -/
def rejections {β : Type} (parse : String → Option β) (warning : String → Event) :
    Option String → List Event
  | none => []
  | some raw => if (parse raw).isSome then [] else [warning raw]

theorem readPolicy_eq (raw? : Option String) :
    readPolicy raw? = ((raw?.bind Policy.parse?).getD .createGlobal,
      rejections Policy.parse? (.unknownPolicy policyVariable) raw?) := by
  cases raw? with
  | none => rfl
  | some raw =>
      rw [readPolicy]
      cases h : Policy.parse? raw <;> simp [rejections, h]

theorem readLimit_eq (raw? : Option String) :
    readLimit raw? = (raw?.bind parseLimit?,
      rejections parseLimit? (.invalidLimit depthVariable) raw?) := by
  cases raw? with
  | none => rfl
  | some raw =>
      rw [readLimit]
      cases h : parseLimit? raw <;> simp [rejections, h]

theorem ofVariables_eq (lookup : String → Option String) :
    ofVariables lookup = (⟨((lookup policyVariable).bind Policy.parse?).getD .createGlobal,
        (lookup depthVariable).bind parseLimit?⟩,
      rejections Policy.parse? (.unknownPolicy policyVariable) (lookup policyVariable) ++
        rejections parseLimit? (.invalidLimit depthVariable) (lookup depthVariable)) := by
  rw [ofVariables, readPolicy_eq, readLimit_eq]

theorem warned_rejections {β : Type} {parse : String → Option β} {accepted : String → Prop}
    (haccepted : ∀ raw, (parse raw).isSome = true ↔ accepted raw) (warning : String → Event)
    (raw? : Option String) : Warned raw? accepted warning (rejections parse warning raw?) := by
  constructor
  · rintro raw rfl hrejected
    rw [← haccepted] at hrejected
    exact if_neg hrejected
  · intro hall
    cases raw? with
    | none => rfl
    | some raw => exact if_pos ((haccepted raw).mpr (hall raw rfl))

theorem isSome_parseLimit?_iff (raw : String) :
    (parseLimit? raw).isSome = true ↔ ∃ n, Denotes raw n ∧ 1 ≤ n ∧ n < 2 ^ 64 := by
  simp only [← map_parseLimit?_eq_some_iff]
  rw [← Option.isSome_map (f := UInt64.toNat), Option.isSome_iff_exists]

theorem exists_of_mem_rejections {β : Type} {parse : String → Option β} {warning : String → Event}
    {raw? : Option String} {e : Event} (he : e ∈ rejections parse warning raw?) :
    ∃ raw, raw? = some raw ∧ e = warning raw := by
  cases raw? with
  | none => cases he
  | some raw =>
      rw [rejections] at he
      split at he
      · cases he
      · exact ⟨raw, rfl, List.mem_singleton.mp he⟩

/-! ### Both variables -/

theorem policy_ofVariables (lookup : String → Option String) :
    (ofVariables lookup).1.policy =
      ((lookup policyVariable).bind Policy.parse?).getD .createGlobal := by
  rw [ofVariables_eq]

theorem maxDepth_ofVariables (lookup : String → Option String) :
    (ofVariables lookup).1.maxDepth = (lookup depthVariable).bind parseLimit? := by
  rw [ofVariables_eq]

theorem map_maxDepth_eq_some_iff {lookup : String → Option String} {n : Nat} :
    (ofVariables lookup).1.maxDepth.map UInt64.toNat = some n ↔
      ∃ raw, lookup depthVariable = some raw ∧ Denotes raw n ∧ 1 ≤ n ∧ n < 2 ^ 64 := by
  rw [maxDepth_ofVariables, Option.map_bind, Option.bind_eq_some_iff]
  exact exists_congr fun raw => and_congr_right fun _ => map_parseLimit?_eq_some_iff

/-- A limit that is written in decimal is read back. -/
theorem maxDepth_of_toString {lookup : String → Option String} {k : UInt64} (hk : k ≠ 0)
    (h : lookup depthVariable = some (toString k.toNat)) :
    (ofVariables lookup).1.maxDepth = some k := by
  have hpos : 1 ≤ k.toNat := Nat.one_le_iff_ne_zero.mpr fun h => hk (UInt64.toNat_inj.mp h)
  have hmap := map_maxDepth_eq_some_iff.mpr ⟨_, h, denotes_toString k.toNat, hpos, k.toNat_lt⟩
  obtain ⟨limit, hlimit, heq⟩ := Option.map_eq_some_iff.mp hmap
  rw [hlimit, UInt64.toNat_inj.mp heq]

theorem maxDepth_ne_zero (lookup : String → Option String) :
    (ofVariables lookup).1.maxDepth ≠ some 0 := by
  intro hzero
  have hmap : (ofVariables lookup).1.maxDepth.map UInt64.toNat = some 0 := by rw [hzero]; rfl
  obtain ⟨-, -, -, hpos, -⟩ := map_maxDepth_eq_some_iff.mp hmap
  exact absurd hpos (by decide)

theorem warning_of_mem_ofVariables {lookup : String → Option String} {e : Event}
    (he : e ∈ (ofVariables lookup).2) :
    e.level = .warn ∧
      ∃ name raw, lookup name = some raw ∧ e.fields = [("var", name), ("value", raw)] := by
  rw [ofVariables_eq, List.mem_append] at he
  rcases he with he | he
  · obtain ⟨raw, hraw, rfl⟩ := exists_of_mem_rejections he
    exact ⟨rfl, policyVariable, raw, hraw, rfl⟩
  · obtain ⟨raw, hraw, rfl⟩ := exists_of_mem_rejections he
    exact ⟨rfl, depthVariable, raw, hraw, rfl⟩

/-- Each field depends on the text of its own variable alone.  The limit is there exactly when that
text is a numeral of a positive number below `2 ^ 64`, and is that number.  A variable that is set
and rejected is reported once, with its text as it is, and nothing else is reported. -/
theorem fields_of_variables (lookup : String → Option String) :
    let policyText := lookup policyVariable
    let depthText := lookup depthVariable
    let c := (ofVariables lookup).1
    (∀ other, other policyVariable = policyText → (ofVariables other).1.policy = c.policy) ∧
      (∀ other, other depthVariable = depthText → (ofVariables other).1.maxDepth = c.maxDepth) ∧
      (∀ other, other policyVariable = policyText → other depthVariable = depthText →
        ofVariables other = ofVariables lookup) ∧
      c.policy = (policyText.bind Policy.parse?).getD .createGlobal ∧
      (∀ n, c.maxDepth.map UInt64.toNat = some n ↔
        ∃ raw, depthText = some raw ∧ Denotes raw n ∧ 1 ≤ n ∧ n < 2 ^ 64) ∧
      (∀ k : UInt64, k ≠ 0 → depthText = some (toString k.toNat) → c.maxDepth = some k) ∧
      c.maxDepth ≠ some 0 ∧
      (∃ first second, (ofVariables lookup).2 = first ++ second ∧
        Warned policyText (fun raw => ∃ policy, Policy.parse? raw = some policy)
          (.unknownPolicy policyVariable) first ∧
        Warned depthText (fun raw => ∃ n, Denotes raw n ∧ 1 ≤ n ∧ n < 2 ^ 64)
          (.invalidLimit depthVariable) second) ∧
      ∀ e ∈ (ofVariables lookup).2, e.level = .warn ∧
        ∃ name raw, lookup name = some raw ∧ e.fields = [("var", name), ("value", raw)] := by
  intro policyText depthText c
  refine ⟨fun other hpolicy => ?_, fun other hdepth => ?_, fun other hpolicy hdepth => ?_,
    policy_ofVariables lookup, fun n => map_maxDepth_eq_some_iff,
    fun k hk hdepth => maxDepth_of_toString hk hdepth, maxDepth_ne_zero lookup, ?_,
    fun e he => warning_of_mem_ofVariables he⟩
  · simp only [c, policy_ofVariables, hpolicy, policyText]
  · simp only [c, maxDepth_ofVariables, hdepth, depthText]
  · simp only [ofVariables_eq, hpolicy, hdepth, policyText, depthText]
  · refine ⟨_, _, congrArg Prod.snd (ofVariables_eq lookup), ?_, ?_⟩
    · exact warned_rejections (fun raw => Option.isSome_iff_exists) _ _
    · exact warned_rejections isSome_parseLimit?_iff _ _

/-- A limit is read beside a policy that is rejected. -/
theorem limit_beside_rejected_policy :
    let lookup := fun name => if name = policyVariable then some " lax" else some (toString 42)
    (ofVariables lookup).1 = ⟨.createGlobal, some 42⟩ ∧
      (ofVariables lookup).2 = [.unknownPolicy policyVariable " lax"] := by
  intro lookup
  have hpolicy : lookup policyVariable = some " lax" := if_pos rfl
  have hdepth : lookup depthVariable = some (toString (42 : UInt64).toNat) := if_neg (by decide)
  have hrejected : Policy.parse? " lax" = none := by decide +kernel
  obtain ⟨-, -, -, hfield, -, hread, -, ⟨first, second, hlog, hfirst, hsecond⟩, -⟩ :=
    fields_of_variables lookup
  have hlimit := hread 42 (by decide) hdepth
  have hfirst := hfirst.1 " lax" hpolicy (by simp [hrejected])
  have hsecond := hsecond.2 fun raw hraw => by
    obtain rfl := Option.some.inj (hdepth.symm.trans hraw)
    exact ⟨42, denotes_toString 42, by decide, by decide⟩
  constructor
  · rw [hpolicy, Option.bind_some, hrejected] at hfield
    cases hc : (ofVariables lookup).1 with
    | mk policy maxDepth =>
        rw [hc] at hfield hlimit
        exact congrArg₂ Config.mk hfield hlimit
  · rw [hlog, hfirst, hsecond, List.append_nil]

end ScopeChain.Config
