/-!
Numbers of 64 bits in binary floating point: a sign, a biased exponent of 11 bits and a fraction of
52 bits.  A finite number is its significand times a power of two, with its sign.  Equality is that
of the numbers: both zeros are equal, and what is not a number equals nothing.
-/

namespace ScopeChain

/-- A floating-point number, as its bits. -/
structure Binary64 where
  bits : UInt64
deriving DecidableEq, Inhabited, Repr

namespace Binary64

def isNegative (x : Binary64) : Bool :=
  Nat.pow 2 63 ≤ x.bits.toNat

def biasedExponent (x : Binary64) : Nat :=
  x.bits.toNat / Nat.pow 2 52 % Nat.pow 2 11

/-- The bits of the significand after the binary point. -/
def fraction (x : Binary64) : Nat :=
  x.bits.toNat % Nat.pow 2 52

def isNaN (x : Binary64) : Bool :=
  x.biasedExponent == 2047 && x.fraction != 0

def isInfinite (x : Binary64) : Bool :=
  x.biasedExponent == 2047 && x.fraction == 0

def isZero (x : Binary64) : Bool :=
  x.bits.toNat % Nat.pow 2 63 == 0

/-- The significand as an integer; a normal number has a leading one before its fraction. -/
def significand (x : Binary64) : Nat :=
  if x.biasedExponent = 0 then x.fraction else Nat.pow 2 52 + x.fraction

/-- The power of two by which the significand is multiplied. -/
def exponent (x : Binary64) : Int :=
  if x.biasedExponent = 0 then -1074 else (x.biasedExponent : Int) - 1075

def equals (x y : Binary64) : Bool :=
  !x.isNaN && !y.isNaN && (x.bits == y.bits || (x.isZero && y.isZero))

theorem equals_self (x : Binary64) : x.equals x = !x.isNaN := by
  simp [equals]

theorem equals_comm (x y : Binary64) : x.equals y = y.equals x := by
  simp only [equals, Bool.beq_comm (a := x.bits), Bool.and_comm (!x.isNaN),
    Bool.and_comm x.isZero]

theorem equals_iff {x y : Binary64} :
    x.equals y = true ↔
      x.isNaN = false ∧ y.isNaN = false ∧ (x = y ∨ (x.isZero = true ∧ y.isZero = true)) := by
  cases x
  cases y
  simp [equals, and_assoc]

theorem equals_trans {x y z : Binary64} (hxy : x.equals y = true) (hyz : y.equals z = true) :
    x.equals z = true := by
  rw [equals_iff] at hxy hyz ⊢
  obtain ⟨hx, -, rfl | ⟨hxz, hyz'⟩⟩ := hxy
  · exact hyz
  · obtain ⟨-, hz, rfl | ⟨-, hzz⟩⟩ := hyz
    · exact ⟨hx, hz, .inr ⟨hxz, hyz'⟩⟩
    · exact ⟨hx, hz, .inr ⟨hxz, hzz⟩⟩

theorem isZero_eq_of_equals {x y : Binary64} (h : x.equals y = true) : x.isZero = y.isZero := by
  obtain ⟨-, -, rfl | ⟨hx, hy⟩⟩ := equals_iff.mp h
  · rfl
  · rw [hx, hy]

/-- The greatest magnitude below which every integer is a number. -/
def exactLimit : Nat :=
  Nat.pow 2 53

/-- The bits of a natural number up to `exactLimit`: the leading one goes to the place of the
implicit bit, the exponent says how far. -/
def bitsOfNat (m : Nat) : Nat :=
  if m = 0 then 0
  else
    (m.log2 + 1023) * Nat.pow 2 52 + (m * Nat.pow 2 53 / Nat.pow 2 (m.log2 + 1) - Nat.pow 2 52)

/-- The number that an integer denotes, for the integers up to `exactLimit` in magnitude. -/
def ofInt? (n : Int) : Option Binary64 :=
  if n.natAbs ≤ exactLimit then
    some ⟨UInt64.ofNat ((if n < 0 then Nat.pow 2 63 else 0) + bitsOfNat n.natAbs)⟩
  else
    none

end Binary64

end ScopeChain
