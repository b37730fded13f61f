import RemoteModel.Number.Binary64
import RemoteModel.Text.Blank
import RemoteModel.Text.Table.Digit

/-!
Numbers written as text: decimal digits of any script, single underscores between digits, blanks
around the number.
-/

namespace RemoteModel

namespace Rune

def decimalValue? (r : Rune) : Option Nat :=
  let n := r.code
  if n < 0x80 then (if r.isDigit then some (n - 0x30) else none)
  else (Table.zeros.find? fun z => z ≤ n && n ≤ z + 9).map (n - ·)

/-- Blanks around a number; in ASCII text the separators U+001C to U+001F are none. -/
def isBlankAround (ascii : Bool) (r : Rune) : Bool :=
  r.isBlank && !(ascii && 0x1C ≤ r.code && r.code ≤ 0x1F)

end Rune

namespace Numeral

/-- No number of more digits is read from text. -/
def digitLimit : Nat := 4300

inductive Reading where
  | number (i : Int)
  | tooLong (digits : Nat)
  | invalid
  deriving DecidableEq, Repr

/-- Digits with single underscores between them; gives their values and the rest. -/
def digitRun : Text → List Nat × Text
  | [] => ([], [])
  | r :: rest =>
      match r.decimalValue? with
      | some d => let (ds, left) := digitRun rest; (d :: ds, left)
      | none =>
          match r, rest with
          | .scalar '_', s :: _ =>
              if s.decimalValue?.isSome then digitRun rest else ([], r :: rest)
          | _, _ => ([], r :: rest)

def ofDigits (ds : List Nat) : Nat := ds.foldl (fun n d => n * 10 + d) 0

def bare (t : Text) : Text :=
  let ascii := t.all Rune.isAscii
  let left := t.dropWhile (Rune.isBlankAround ascii)
  (left.reverse.dropWhile (Rune.isBlankAround ascii)).reverse

def signed (t : Text) : Bool × Text :=
  match t with
  | .scalar '-' :: rest => (true, rest)
  | .scalar '+' :: rest => (false, rest)
  | _ => (false, t)

def readInt (t : Text) : Reading :=
  let (negative, body) := signed (bare t)
  let startsWithDigit := match body with
    | [] => false
    | r :: _ => r.decimalValue?.isSome
  if !startsWithDigit then .invalid
  else
    let (ds, rest) := digitRun body
    match rest with
    | .scalar '_' :: _ => .invalid
    | _ =>
        if digitLimit < ds.length then .tooLong ds.length
        else if !rest.isEmpty then .invalid
        else .number (if negative then -(ofDigits ds : Int) else ofDigits ds)

def matchesWord (t : Text) (word : Text) : Bool :=
  t.map (fun r => if r.isAsciiUpper then Rune.ofCode (r.code + 0x20) else r) == word

/-- An exponent after its mark; without a digit there is none. -/
def exponentOf (t : Text) : Option (Int × Text) :=
  let (negative, body) := signed t
  match body with
  | r :: _ =>
      if r.decimalValue?.isSome then
        let (ds, rest) := digitRun body
        some (if negative then -(ofDigits ds : Int) else ofDigits ds, rest)
      else none
  | [] => none

/-- Digits at a place where a digit must stand if an underscore does. -/
def digitsAt (t : Text) : List Nat × Text :=
  match t with
  | r :: _ => if r.decimalValue?.isSome then digitRun t else ([], t)
  | [] => ([], [])

def readFloat (t : Text) : Option Binary64 :=
  let (negative, body) := signed (bare t)
  if matchesWord body "inf" || matchesWord body "infinity" then some (.infinity negative)
  else if matchesWord body "nan" then some .nan
  else
    let (whole, rest) := digitsAt body
    let (fraction, rest) := match rest with
      | .scalar '.' :: more => digitsAt more
      | _ => ([], rest)
    if whole.isEmpty && fraction.isEmpty then none
    else
      let digits := ofDigits (whole ++ fraction)
      let scale : Int := -(fraction.length : Int)
      match rest with
      | [] => some (.ofDecimal negative digits scale)
      | .scalar 'e' :: more | .scalar 'E' :: more =>
          match exponentOf more with
          | some (e, []) => some (.ofDecimal negative digits (scale + e))
          | _ => none
      | _ => none

end Numeral

end RemoteModel
