/-!
# Binary64 Magnitudes

A finite non-negative binary64 number is a mantissa times a power of two. Every
operation is exact on the pair of integers that represents the value and is then
rounded to the nearest representable number, a tie going to the even mantissa.
The largest exponent is 971; a result beyond it is an overflow.

## Main definitions

- `roundDiv`: a quotient rounded to the nearest integer, ties to even
- `Binary64`: a mantissa and an exponent
- `Binary64.ofRatio`: the representable number nearest to a quotient
- `Binary64.mul`, `Binary64.div`: the rounded operations
-/

namespace EdgeSync.Number

/-! ## Rounding a quotient -/

/-- The integer nearest to `num / den`; halfway between two, the even one. -/
def roundDiv (num den : Nat) : Nat :=
  let q := num / den
  let r := num % den
  if den < 2 * r ∨ (2 * r = den ∧ q % 2 = 1) then q + 1 else q

/-! ## Values -/

/-- The value `mant * 2 ^ exp`. -/
structure Binary64 where
  mant : Nat
  exp : Int
  deriving DecidableEq, Repr

namespace Binary64

/-- The least exponent of a representable number. -/
def minExp : Int := -1074

/-- The greatest exponent of a representable number. -/
def maxExp : Int := 971

/-- The first mantissa of 53 bits. -/
def mantStart : Nat := 4503599627370496

/-- The first natural number that is too long for a mantissa. -/
def mantLimit : Nat := 9007199254740992

/-- The number zero. -/
def zero : Binary64 := ⟨0, minExp⟩

/-- The value as a quotient of two natural numbers. -/
def toRatio (x : Binary64) : Nat × Nat :=
  (x.mant * Nat.pow 2 x.exp.toNat, Nat.pow 2 (-x.exp).toNat)

/-- Whether the value is zero. -/
def isZero (x : Binary64) : Bool :=
  x.mant == 0

/-- The quotient `num / den` in units of `2 ^ e`, as a quotient again. -/
def inUnits (num den : Nat) (e : Int) : Nat × Nat :=
  (num * Nat.pow 2 (-e).toNat, den * Nat.pow 2 e.toNat)

/-- The exponent at which `num / den` has a mantissa of 53 bits, or the least one. -/
def exponentOf (num den : Nat) : Int :=
  -- At the guessed exponent the mantissa has 53 bits or one more.
  let guess : Int := max ((Nat.log2 num : Int) - Nat.log2 den - 53) minExp
  let scaled := inUnits num den guess
  if mantLimit ≤ scaled.1 / scaled.2 then guess + 1 else guess

/-- The representable number nearest to `num / den`, unless it is too large. -/
def ofRatio (num den : Nat) : Option Binary64 :=
  if num = 0 then some zero
  else
    let e := exponentOf num den
    let scaled := inUnits num den e
    let m := roundDiv scaled.1 scaled.2
    -- Rounding up may reach the next power of two.
    let x : Binary64 := if m = mantLimit then ⟨mantStart, e + 1⟩ else ⟨m, e⟩
    if maxExp < x.exp then none else some x

/-- The representable number nearest to a natural number. -/
def ofNat (n : Nat) : Option Binary64 :=
  ofRatio n 1

/-- The rounded product. -/
def mul (x y : Binary64) : Option Binary64 :=
  ofRatio (x.toRatio.1 * y.toRatio.1) (x.toRatio.2 * y.toRatio.2)

/-- The rounded quotient by a number other than zero. -/
def div (x y : Binary64) : Option Binary64 :=
  ofRatio (x.toRatio.1 * y.toRatio.2) (x.toRatio.2 * y.toRatio.1)

end Binary64

end EdgeSync.Number
