import EdgeSync.Number.Binary64

/-!
# Shortest Decimals

The decimal text of a binary64 magnitude has the fewest digits that read back as
the same number, and of those the digits nearest to it. The numbers that read
back form an interval between the midpoints to both neighbours; its ends belong
to it when the mantissa is even. For one digit, two digits, and so on up to
seventeen, the two neighbours of the value on that decimal grid are tested.

## Main definitions

- `Decimal`: digits and the power of ten of the last one
- `Binary64.shortest`: the shortest decimal that reads back
- `Decimal.render`: positional text up to sixteen integer digits, else an exponent
-/

namespace EdgeSync.Number

/-- The value `digits * 10 ^ scale`. -/
structure Decimal where
  digits : Nat
  scale : Int
  deriving DecidableEq, Repr

namespace Binary64

/-- A quotient compared with another one. -/
def ratioLt (a b : Nat × Nat) : Bool :=
  a.1 * b.2 < b.1 * a.2

/-- The value `m * 2 ^ e` as a quotient. -/
def scaledRatio (m : Nat) (e : Int) : Nat × Nat :=
  (Binary64.mk m e).toRatio

/-- The midpoint between a number and the one below it. -/
def lowerMidpoint (x : Binary64) : Nat × Nat :=
  -- Below a power of two the grid is twice as fine.
  if x.mant = mantStart ∧ minExp < x.exp then scaledRatio (4 * x.mant - 1) (x.exp - 2)
  else scaledRatio (4 * x.mant - 2) (x.exp - 2)

/-- The midpoint between a number and the one above it. -/
def upperMidpoint (x : Binary64) : Nat × Nat :=
  scaledRatio (4 * x.mant + 2) (x.exp - 2)

/-- Whether a quotient rounds to the given number. -/
def readsBack (x : Binary64) (r : Nat × Nat) : Bool :=
  let low := x.lowerMidpoint
  let high := x.upperMidpoint
  if x.mant % 2 = 0 then !ratioLt r low && !ratioLt high r
  else ratioLt low r && ratioLt r high

/-- The value `d * 10 ^ k` as a quotient. -/
def decimalRatio (d : Nat) (k : Int) : Nat × Nat :=
  (d * Nat.pow 10 k.toNat, Nat.pow 10 (-k).toNat)

/-- The distance of two quotients, as a quotient. -/
def ratioDist (a b : Nat × Nat) : Nat × Nat :=
  (max (a.1 * b.2) (b.1 * a.2) - min (a.1 * b.2) (b.1 * a.2), a.2 * b.2)

/-- The neighbour of the value on the grid of multiples of `10 ^ k` that reads
back and is nearest; halfway between two, the one with the even last digit. -/
def onGrid (x : Binary64) (k : Int) : Option Nat :=
  let r := x.toRatio
  let below := (r.1 * Nat.pow 10 (-k).toNat) / (r.2 * Nat.pow 10 k.toNat)
  let above := below + 1
  let lowHit := x.readsBack (decimalRatio below k)
  let highHit := x.readsBack (decimalRatio above k)
  -- If both neighbours read back, the nearer one wins.
  if lowHit && highHit then
    let lowDist := ratioDist r (decimalRatio below k)
    let highDist := ratioDist r (decimalRatio above k)
    if ratioLt lowDist highDist then some below
    else if ratioLt highDist lowDist then some above
    else some (if below % 2 = 0 then below else above)
  else if lowHit then some below
  else if highHit then some above
  else none

/-- The exponent of the first decimal digit of a positive number: the greatest
`e` with `10 ^ e` at most the value, found by counting down from `e`. -/
def leadingExponent (x : Binary64) : Nat → Int → Int
  | 0, e => e
  | steps + 1, e =>
    if ratioLt x.toRatio (decimalRatio 1 e) then leadingExponent x steps (e - 1) else e

/-- Try grids of more and more digits. -/
def shortestFrom (x : Binary64) (lead : Int) : Nat → Nat → Decimal
  | 0, n => ⟨x.toRatio.1 / x.toRatio.2, lead - n⟩
  | tries + 1, n =>
    match x.onGrid (lead - n) with
    | some d => ⟨d, lead - n⟩
    | none => shortestFrom x lead tries (n + 1)

/-- The shortest decimal that reads back as a positive number. -/
def shortest (x : Binary64) : Decimal :=
  shortestFrom x (x.leadingExponent 640 309) 18 0

end Binary64

namespace Decimal

/-- Move the zeros at the end of the digits into the scale. -/
def stripZeros : Nat → Decimal → Decimal
  | 0, d => d
  | steps + 1, d =>
    if d.digits % 10 = 0 ∧ d.digits ≠ 0 then stripZeros steps ⟨d.digits / 10, d.scale + 1⟩
    else d

/-- The text of a positive decimal: positional when its first digit stands for
`10 ^ (-5)` to `10 ^ 15`, with at least one digit after the point; otherwise one
digit, the others after a point, and a signed exponent. -/
def render (d : Decimal) : List Char :=
  let d := d.stripZeros 20
  let ds := Nat.toDigits 10 d.digits
  let lead : Int := d.scale + ds.length - 1
  if -5 ≤ lead ∧ lead ≤ 15 then
    if 0 ≤ d.scale then ds ++ List.replicate d.scale.toNat '0' ++ ['.', '0']
    else if 0 ≤ lead then
      ds.take (lead.toNat + 1) ++ ['.'] ++ ds.drop (lead.toNat + 1)
    else ['0', '.'] ++ List.replicate ((-lead).toNat - 1) '0' ++ ds
  else
    let mantissa := match ds with
      | [] => []
      | [c] => [c]
      | c :: rest => c :: '.' :: rest
    let mark := if lead < 0 then ['e', '-'] else ['e', '+']
    mantissa ++ mark ++ Nat.toDigits 10 lead.natAbs

end Decimal

/-- The text of a magnitude. -/
def Binary64.render (x : Binary64) : List Char :=
  if x.isZero then ['0', '.', '0'] else x.shortest.render

end EdgeSync.Number
