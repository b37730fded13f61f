/-!
Floating-point numbers of 64 bits, held as their pattern. Every operation goes through the exact
rational value, so a result is the nearest number to the true one.
-/

namespace RemoteModel

structure Binary64 where
  bits : UInt64
  deriving DecidableEq, Repr, Inhabited

namespace Binary64

inductive Class where
  | nan
  | infinite (negative : Bool)
  | finite (negative : Bool) (mantissa : Nat) (exponent : Int)
  deriving DecidableEq, Repr

/-- A finite number is its mantissa times two to its exponent. -/
def classify (x : Binary64) : Class :=
  let n := x.bits.toNat
  let negative := decide (Nat.pow 2 63 ≤ n)
  let exponent : Nat := n / Nat.pow 2 52 % Nat.pow 2 11
  let fraction : Nat := n % Nat.pow 2 52
  if exponent = 0x7FF then
    if fraction = 0 then .infinite negative else .nan
  else if exponent = 0 then .finite negative fraction (-1074)
  else .finite negative (fraction + Nat.pow 2 52) ((exponent : Int) - 1075)

def ofParts (negative : Bool) (magnitude : Nat) : Binary64 :=
  ⟨(magnitude + if negative then Nat.pow 2 63 else 0).toUInt64⟩

def infinity (negative : Bool) : Binary64 := ofParts negative (0x7FF * Nat.pow 2 52)

def nan : Binary64 := ofParts false (0x7FF * Nat.pow 2 52 + Nat.pow 2 51)

def zero (negative : Bool) : Binary64 := ofParts negative 0

/-- The nearest whole number to a quotient; of two, the even one. -/
def roundQuotient (num den : Nat) : Nat :=
  let q := num / den
  let r := num % den
  if 2 * r < den then q else if den < 2 * r then q + 1 else q + q % 2

/-- Two to an integer power as a numerator and a denominator. -/
def powerOfTwo (k : Int) : Nat × Nat :=
  if 0 ≤ k then (Nat.pow 2 k.toNat, 1) else (1, Nat.pow 2 (-k).toNat)

/-- The nearest number to `num / den`, with the even mantissa on a tie. -/
def ofQuotient (negative : Bool) (num den : Nat) : Binary64 :=
  if num = 0 then zero negative
  else
    let guess : Int := (Nat.log2 num : Int) - Nat.log2 den
    let (up, down) := powerOfTwo guess
    let top := if den * up ≤ num * down then guess else guess - 1
    let last := max (top - 52) (-1074)
    let (up, down) := powerOfTwo last
    let magnitude := (last + 1074).toNat * Nat.pow 2 52 + roundQuotient (num * down) (den * up)
    if 0x7FF * Nat.pow 2 52 ≤ magnitude then infinity negative else ofParts negative magnitude

def ofRat (x : Rat) : Binary64 := ofQuotient (x.num < 0) x.num.natAbs x.den

def ofInt (i : Int) : Binary64 := ofQuotient (i < 0) i.natAbs 1

/-- The nearest number to `digits` times ten to `exponent`. -/
def ofDecimal (negative : Bool) (digits : Nat) (exponent : Int) : Binary64 :=
  if digits = 0 then zero negative
  else if 400 < exponent then infinity negative
  else if (Nat.log2 digits : Int) + 3 * exponent < -1200 then zero negative
  else if 0 ≤ exponent then ofQuotient negative (digits * Nat.pow 10 exponent.toNat) 1
  else ofQuotient negative digits (Nat.pow 10 (-exponent).toNat)

/-- The exact value of a finite number. -/
def toRat? (x : Binary64) : Option Rat :=
  match x.classify with
  | .finite negative mantissa exponent =>
      let (up, down) := powerOfTwo exponent
      let magnitude := mkRat (mantissa * up) down
      some (if negative then -magnitude else magnitude)
  | _ => none

def isNegative (x : Binary64) : Bool := decide (Nat.pow 2 63 ≤ x.bits.toNat)

def isNan (x : Binary64) : Bool := x.classify = .nan

def isZero (x : Binary64) : Bool := x.toRat? = some 0

end Binary64

end RemoteModel
