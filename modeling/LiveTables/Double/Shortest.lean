import LiveTables.Double

namespace LiveTables.Double

/-- Which of two equally near decimals is taken. -/
inductive Tie where
  | upper
  | even
deriving DecidableEq, Repr

/-- The number `digits * 10 ^ power`. -/
structure Decimal where
  digits : Nat
  power : Int
deriving DecidableEq, Repr

def digitCount (n : Nat) : Nat := (Nat.toDigits 10 n).length

/-- The largest `e` with `10 ^ e ≤ num / den`, for a positive quotient. -/
def decimalOrder (num den : Nat) : Int :=
  if den ≤ num then digitCount (num / den) - 1
  else
    let k := digitCount (den / num) - 1
    if den ≤ num * Nat.pow 10 k then -k else -(k + 1)

/-- Multiples of `10 ^ power` beside a number, compared with the reals that round to it. All
quantities are scaled by `unit`, so they are integers. -/
structure Grid where
  step : Nat
  value : Nat
  lower : Nat
  upper : Nat
  /-- Whether the ends of the interval round to the number. -/
  closed : Bool

namespace Grid

/-- The grid of step `10 ^ power` around a positive finite number. -/
def around (x : Double) (power : Int) : Grid :=
  let m := x.significand
  let gap := if x.fractionField = 0 && 1 < x.exponentField then 1 else 2
  let twos : Int := x.exponent - 2
  let scale := Nat.pow 2 twos.toNat * Nat.pow 10 (-power).toNat
  { step := Nat.pow 10 power.toNat * Nat.pow 2 (-twos).toNat
    value := 4 * m * scale
    lower := (4 * m - gap) * scale
    upper := (4 * m + 2) * scale
    closed := m % 2 = 0 }

/-- Whether the multiple `k` of the step rounds to the number. -/
def admits (g : Grid) (k : Nat) : Bool :=
  if g.closed then g.lower ≤ k * g.step && k * g.step ≤ g.upper
  else g.lower < k * g.step && k * g.step < g.upper

/-- The admitted multiple nearest to the number, if one of its two neighbours is admitted. -/
def nearest? (g : Grid) (tie : Tie) : Option Nat :=
  let below := g.value / g.step
  let above := below + 1
  match g.admits below, g.admits above with
  | false, false => none
  | true, false => some below
  | false, true => some above
  | true, true =>
    let down := g.value - below * g.step
    let up := above * g.step - g.value
    if down < up then some below
    else if up < down then some above
    else match tie with
      | .upper => some above
      | .even => if below % 2 = 0 then some below else some above

end Grid

/-- The first grid, from coarse to fine, with an admitted neighbour. -/
def searchDigits (x : Double) (tie : Tie) (order : Int) (count : Nat) : Nat → Decimal
  | 0 => ⟨x.significand, x.exponent⟩
  | more + 1 =>
    let power := order - count
    match (Grid.around x power).nearest? tie with
    | some k => ⟨k, power⟩
    | none => searchDigits x tie order (count + 1) more

/-- A shortest decimal for a positive finite number. The number stands for every real that rounds to
it, and of the decimals among these one is taken with the fewest digits and, next, the nearest.
Seventeen digits always suffice. -/
def shortest (x : Double) (tie : Tie) : Decimal :=
  let (num, den) := x.toRatio
  searchDigits x tie (decimalOrder num den) 0 17

/-- How the digits of a decimal are set out. -/
structure Layout where
  /-- The least exponent of the leading digit that is written in positional notation. -/
  leastPositional : Int
  /-- The greatest such exponent. -/
  greatestPositional : Int
  signedExponent : Bool
  tie : Tie

/-- Positional notation, with a digit on both sides of the point. -/
def positional (digits : List Char) (order : Int) : List Char :=
  if order < 0 then '0' :: '.' :: (List.replicate (-order - 1).toNat '0' ++ digits)
  else
    let whole := order.toNat + 1
    let fraction := digits.drop whole
    digits.take whole ++ List.replicate (whole - digits.length) '0' ++
      '.' :: (if fraction.isEmpty then ['0'] else fraction)

/-- Scientific notation: the point is left out after a single digit. -/
def scientific (signedExponent : Bool) (digits : List Char) (order : Int) : List Char :=
  let fraction := digits.drop 1
  digits.take 1 ++ (if fraction.isEmpty then [] else '.' :: fraction) ++
    'e' :: ((if signedExponent && 0 < order then ['+'] else []) ++ (toString order).toList)

def dropTrailingZeros (digits : List Char) : List Char :=
  (digits.reverse.dropWhile (· = '0')).reverse

/-- The text of a positive finite number. -/
def Layout.magnitude (layout : Layout) (x : Double) : List Char :=
  let decimal := x.shortest layout.tie
  let written := Nat.toDigits 10 decimal.digits
  let order := decimal.power + written.length - 1
  let digits := dropTrailingZeros written
  if layout.leastPositional ≤ order && order ≤ layout.greatestPositional then
    positional digits order
  else scientific layout.signedExponent digits order

/-- The text of any number. NaN has no sign. -/
def Layout.text (layout : Layout) (x : Double) : String :=
  if x.isNaN then "NaN"
  else
    let magnitude :=
      if x.isInfinite then "inf"
      else if x.isZero then "0.0"
      else String.ofList (layout.magnitude x)
    if x.negative then "-" ++ magnitude else magnitude

end LiveTables.Double
