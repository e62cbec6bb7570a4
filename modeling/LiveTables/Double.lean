namespace LiveTables

/-- A floating-point number, as its 64-bit pattern. A finite one is `significand * 2 ^ exponent` up
to its sign. Everything is computed exactly and then rounded by `ofRatio`. -/
structure Double where
  bits : UInt64
deriving DecidableEq, Inhabited, Repr

namespace Double

def negative (x : Double) : Bool := Nat.pow 2 63 ≤ x.bits.toNat

def exponentField (x : Double) : Nat := x.bits.toNat / Nat.pow 2 52 % Nat.pow 2 11

def fractionField (x : Double) : Nat := x.bits.toNat % Nat.pow 2 52

def isNaN (x : Double) : Bool := x.exponentField = 2047 && x.fractionField ≠ 0

def isInfinite (x : Double) : Bool := x.exponentField = 2047 && x.fractionField = 0

def isZero (x : Double) : Bool := x.exponentField = 0 && x.fractionField = 0

/-- The integer part of a finite number's binary notation: the fraction, with the leading one
that a normal number leaves unwritten. -/
def significand (x : Double) : Nat :=
  if x.exponentField = 0 then x.fractionField else Nat.pow 2 52 + x.fractionField

/-- The power of two that scales the significand. -/
def exponent (x : Double) : Int := (max x.exponentField 1 : Nat) - 1075

/-- Equality of the format: NaN equals nothing and the two zeros are equal. -/
def equal (x y : Double) : Bool :=
  !x.isNaN && !y.isNaN && ((x.isZero && y.isZero) || x == y)

/-- The magnitude of a finite number as a quotient. -/
def toRatio (x : Double) : Nat × Nat :=
  if 0 ≤ x.exponent then (x.significand * Nat.pow 2 x.exponent.toNat, 1)
  else (x.significand, Nat.pow 2 (-x.exponent).toNat)

/-- The quotient's nearest integer, a tie going to the even one. -/
def roundToEven (num den : Nat) : Nat :=
  let below := num / den
  let twice := 2 * (num % den)
  if twice < den then below
  else if den < twice then below + 1
  else below + below % 2

/-- The largest `k` with `2 ^ k ≤ num / den`. -/
def binaryOrder (num den : Nat) : Int :=
  let k : Int := (num.log2 : Int) - den.log2
  let reached :=
    if 0 ≤ k then den * Nat.pow 2 k.toNat ≤ num else den ≤ num * Nat.pow 2 (-k).toNat
  if reached then k else k - 1

/-- The number nearest to `num / den`, a tie going to the even significand. Past the largest
finite number stands infinity. -/
def ofRatio (negative : Bool) (num den : Nat) : Double :=
  let sign := if negative then Nat.pow 2 63 else 0
  if num = 0 then ⟨UInt64.ofNat sign⟩
  else
    let q : Int := max (binaryOrder num den - 52) (-1074)
    let m := if 0 ≤ q then roundToEven num (den * Nat.pow 2 q.toNat)
      else roundToEven (num * Nat.pow 2 (-q).toNat) den
    let pattern := (q + 1074).toNat * Nat.pow 2 52 + m
    ⟨UInt64.ofNat (sign + min pattern (2047 * Nat.pow 2 52))⟩

def ofInt (n : Int) : Double := ofRatio (n < 0) n.natAbs 1

/-- The number nearest to `significand * 10 ^ power`, unless that is infinity. Magnitudes far
outside the range of the format are told by their decimal order alone. -/
def ofDecimal? (significand : Nat) (power : Int) : Option Double :=
  let order := power + (Nat.toDigits 10 significand).length
  if significand = 0 || order < -330 then some (ofRatio false 0 1)
  else if 310 < order then none
  else
    let x :=
      if 0 ≤ power then ofRatio false (significand * Nat.pow 10 power.toNat) 1
      else ofRatio false significand (Nat.pow 10 (-power).toNat)
    if x.isInfinite then none else some x

def negate (x : Double) : Double := ⟨x.bits ^^^ 0x8000000000000000⟩

/-- The number that a pattern of the 32-bit format stands for, which the wider format holds
exactly. -/
def ofSinglePattern (pattern : UInt32) : Double :=
  let bits := pattern.toNat
  let negative := Nat.pow 2 31 ≤ bits
  let exponentField := bits / Nat.pow 2 23 % Nat.pow 2 8
  let fraction := bits % Nat.pow 2 23
  let sign := if negative then Nat.pow 2 63 else 0
  if exponentField = 255 then
    ⟨UInt64.ofNat (sign + 2047 * Nat.pow 2 52 + fraction * Nat.pow 2 29)⟩
  else
    let significand := if exponentField = 0 then fraction else Nat.pow 2 23 + fraction
    ofRatio negative (significand * Nat.pow 2 (max exponentField 1)) (Nat.pow 2 150)

end Double

end LiveTables
