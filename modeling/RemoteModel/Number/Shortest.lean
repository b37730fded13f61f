import RemoteModel.Number.Binary64
import RemoteModel.Text.Rune

/-!
The shortest decimal that reads back as a given number, and its text: positional from 10^-4 up to
10^16, with an exponent of two digits at least elsewhere.
-/

namespace RemoteModel.Binary64

/-- The greatest power of ten that is not above a positive rational. -/
def decimalTop (x : Rat) : Int :=
  let whole := x.num.natAbs / x.den
  if 0 < whole then ((Nat.toDigits 10 whole).length : Int) - 1
  else
    let d : Nat := (Nat.toDigits 10 (x.den / x.num.natAbs)).length
    if x.den ≤ x.num.natAbs * Nat.pow 10 (d - 1) then -((d : Int) - 1) else -(d : Int)

def powerOfTen (k : Int) : Rat :=
  if 0 ≤ k then ((Nat.pow 10 k.toNat : Nat) : Rat) else mkRat 1 (Nat.pow 10 (-k).toNat)

/-- The numbers that round to a given mantissa and exponent lie between these two; the ends belong
to it when the mantissa is even. -/
def roundingInterval (mantissa : Nat) (exponent : Int) : Rat × Rat :=
  let (up, down) := powerOfTwo (exponent - 2)
  let quarter := mkRat up down
  let below : Rat := if mantissa = Nat.pow 2 52 ∧ -1074 < exponent then 1 else 2
  (quarter * ((4 * mantissa : Nat) : Rat) - quarter * below,
    quarter * ((4 * mantissa : Nat) : Rat) + quarter * 2)

/-- The nearest grid point of the given number of digits that reads back. -/
def onGrid (x low high : Rat) (closed : Bool) (top : Int) (digits : Nat) : Option Nat :=
  let unit := powerOfTen (top - ((digits : Int) - 1))
  let reads (n : Nat) : Bool :=
    let y := unit * (n : Rat)
    if closed then low ≤ y && y ≤ high else low < y && y < high
  let lower := (x / unit).floor.toNat
  let lowerNear := x - unit * (lower : Rat)
  let upperNear := unit * ((lower + 1 : Nat) : Rat) - x
  if reads lower && (!reads (lower + 1) || lowerNear < upperNear
      || (lowerNear = upperNear && lower % 2 = 0)) then some lower
  else if reads (lower + 1) then some (lower + 1)
  else none

/-- The digits of the shortest decimal and the power of ten of its first digit. -/
def shortest (mantissa : Nat) (exponent : Int) : List Char × Int :=
  let (up, down) := powerOfTwo exponent
  let x := mkRat (mantissa * up) down
  let (low, high) := roundingInterval mantissa exponent
  let top := decimalTop x
  let found := (List.range 17).findSome? fun n =>
    (onGrid x low high (mantissa % 2 == 0) top (n + 1)).map fun v => (n + 1, v)
  match found with
  | none => (['0'], 0)
  | some (n, v) =>
      let written := Nat.toDigits 10 v
      let top := top + ((written.length : Int) - n)
      let trimmed := (written.reverse.dropWhile (· == '0')).reverse
      (trimmed, top)

def layOut (digits : List Char) (top : Int) : List Char :=
  if -4 ≤ top ∧ top < 16 then
    if top < 0 then
      ['0', '.'] ++ List.replicate ((-top).toNat - 1) '0' ++ digits
    else
      let whole := top.toNat + 1
      let filled := digits ++ List.replicate (whole - digits.length) '0'
      let fraction := filled.drop whole
      filled.take whole ++ '.' :: (if fraction.isEmpty then ['0'] else fraction)
  else
    let size := Nat.toDigits 10 top.natAbs
    let body := match digits with
      | [] => []
      | [d] => [d]
      | d :: rest => d :: '.' :: rest
    body ++ 'e' :: (if top < 0 then '-' else '+') ::
      (List.replicate (2 - size.length) '0' ++ size)

def text (x : Binary64) : Text :=
  match x.classify with
  | .nan => "nan"
  | .infinite negative => if negative then "-inf" else "inf"
  | .finite negative mantissa exponent =>
      let body := if mantissa = 0 then ['0', '.', '0'] else
        let (digits, top) := shortest mantissa exponent
        layOut digits top
      (if negative then '-' :: body else body).map Rune.scalar

end RemoteModel.Binary64
