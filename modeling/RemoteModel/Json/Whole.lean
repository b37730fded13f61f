import RemoteModel.Failure
import RemoteModel.Number.Numeral

/-!
The whole number that a value stands for.
-/

namespace RemoteModel

def Binary64.whole (x : Binary64) : Except Failure Int :=
  match x.classify with
  | .nan => .error .integerOfNan
  | .infinite _ => .error .integerOfInfinity
  | .finite negative mantissa exponent =>
      let (up, down) := Binary64.powerOfTwo exponent
      let magnitude : Nat := mantissa * up / down
      .ok (if negative then -(magnitude : Int) else magnitude)

/-- A number loses its fraction, a text is read. -/
def Json.whole : Json → Except Failure Int
  | .bool b => .ok (if b then 1 else 0)
  | .int i => .ok i
  | .float x => x.whole
  | .str t =>
      match Numeral.readInt t with
      | .number i => .ok i
      | .tooLong digits => .error (.integerTooLong digits)
      | .invalid => .error (.notInteger t)
  | _ => .error .wrongType

end RemoteModel
