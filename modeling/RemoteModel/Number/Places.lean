import RemoteModel.Number.Binary64

/-!
Rounding to a number of decimal places, from the exact value and with ties to the even digit.
-/

namespace RemoteModel.Binary64

/-- A rational rounded to a multiple of `10 ^ -places`. -/
def roundRat (places : Nat) (x : Rat) : Rat :=
  let units := roundQuotient (x.num.natAbs * Nat.pow 10 places) x.den
  mkRat (if x.num < 0 then -(units : Int) else units) (Nat.pow 10 places)

def roundTo (places : Nat) (x : Binary64) : Binary64 :=
  match x.toRat? with
  | none => x
  | some v =>
      let rounded := roundRat places v
      if rounded = 0 then zero x.isNegative else ofRat rounded

end RemoteModel.Binary64
