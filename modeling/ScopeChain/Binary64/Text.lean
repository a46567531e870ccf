import ScopeChain.Binary64.Shortest

/-!
The two texts of a number.  The plain text has the shortest digits in positional form whatever their
size, and no fraction when there is none.  The precise text always shows a fraction or an exponent:
it is positional from `0.0001` up to below `10 ^ 16` and has an exponent elsewhere.
-/

namespace ScopeChain.Binary64

/-- The decimal in positional form, `whole` standing after the digits of an integer. -/
def Decimal.positional (d : Decimal) (whole : String) : String :=
  let digits := Nat.toDigits 10 d.digits
  let point := (digits.length : Int) + d.exponent
  if point ≤ 0 then
    "0." ++ String.ofList (List.replicate (-point).toNat '0' ++ digits)
  else if d.exponent < 0 then
    String.ofList (digits.take point.toNat) ++ "." ++ String.ofList (digits.drop point.toNat)
  else
    String.ofList (digits ++ List.replicate d.exponent.toNat '0') ++ whole

/-- The power of ten of the leading digit. -/
def Decimal.leadingExponent (d : Decimal) : Int :=
  (Nat.toDigits 10 d.digits).length + d.exponent - 1

/-- The decimal with one digit before the point and an exponent. -/
def Decimal.scientific (d : Decimal) : String :=
  let digits := Nat.toDigits 10 d.digits
  let tail := digits.drop 1
  String.ofList (digits.take 1) ++ (if tail.isEmpty then "" else "." ++ String.ofList tail)
    ++ "e" ++ toString d.leadingExponent

/-- The text of a number, given the text of zero and that of a decimal; an infinity is `inf`. -/
def textWith (x : Binary64) (zero : String) (decimal : Decimal → String) : String :=
  if x.isNaN then "NaN"
  else
    (if x.isNegative then "-" else "") ++
      (if x.isInfinite then "inf" else if x.isZero then zero else decimal x.shortest)

/-- The plain text. -/
def display (x : Binary64) : String :=
  x.textWith "0" fun d => d.positional ""

/-- The precise text. -/
def precise (x : Binary64) : String :=
  x.textWith "0.0" fun d =>
    if -4 ≤ d.leadingExponent ∧ d.leadingExponent < 16 then d.positional ".0" else d.scientific

end ScopeChain.Binary64
