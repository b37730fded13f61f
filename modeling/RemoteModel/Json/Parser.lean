import RemoteModel.Json.Basic
import RemoteModel.Number.Numeral

/-!
Reading of JSON. Not-a-number and the infinities are read too, and an escape may name half of a
surrogate pair. A fault is placed by the number of runes that are left at it, from which its
position, line and column follow.
-/

namespace RemoteModel.Json

inductive Fault where
  | value
  | extra
  | key
  | colon
  | comma
  | unterminated
  | control
  | escape
  | unicodeEscape
  | byteOrderMark
  deriving DecidableEq, Repr

def Fault.text : Fault → Text
  | .value => "Expecting value"
  | .extra => "Extra data"
  | .key => "Expecting property name enclosed in double quotes"
  | .colon => "Expecting ':' delimiter"
  | .comma => "Expecting ',' delimiter"
  | .unterminated => "Unterminated string starting at"
  | .control => "Invalid control character at"
  | .escape => "Invalid \\escape"
  | .unicodeEscape => "Invalid \\uXXXX escape"
  | .byteOrderMark => "Unexpected UTF-8 BOM (decode using utf-8-sig)"

/-- Why reading stops: a fault with the number of runes left, or a whole number beyond the limit. -/
inductive Stop where
  | fault (what : Fault) (left : Nat)
  | tooLong (digits : Nat)
  deriving DecidableEq, Repr

def isSpace (r : Rune) : Bool :=
  r = .scalar ' ' || r = .scalar '\t' || r = .scalar '\n' || r = .scalar '\r'

def skipSpace (t : Text) : Text := t.dropWhile isSpace

def simpleEscape : Rune → Option Rune
  | .scalar '"' => some (.scalar '"')
  | .scalar '\\' => some (.scalar '\\')
  | .scalar '/' => some (.scalar '/')
  | .scalar 'b' => some (.scalar '\x08')
  | .scalar 'f' => some (.scalar '\x0c')
  | .scalar 'n' => some (.scalar '\n')
  | .scalar 'r' => some (.scalar '\r')
  | .scalar 't' => some (.scalar '\t')
  | _ => none

def hexQuad? (a b c d : Rune) : Option Nat :=
  match a.hexValue?, b.hexValue?, c.hexValue?, d.hexValue? with
  | some a, some b, some c, some d => some (((a * 16 + b) * 16 + c) * 16 + d)
  | _, _, _, _ => none

def isHigh (n : Nat) : Bool := 0xD800 ≤ n && n < 0xDC00

def isLow (n : Nat) : Bool := 0xDC00 ≤ n && n < 0xE000

def joinPair (high low : Nat) : Nat := 0x10000 + (high - 0xD800) * 0x400 + (low - 0xDC00)

/-- What a rune within a quoted text is, seen together with the runes after it: the closing quote,
a rune of the text that is spelt with some of the runes after it, or a fault. -/
inductive StringStep where
  | close
  | rune (r : Rune) (more : Nat)
  | unclosed
  | fault (what : Fault) (left : Nat)
  deriving DecidableEq, Repr

/-- The lower half of a surrogate pair, when an escape that is followed by a further rune names one.
The outer value is missing when that escape has a bad digit. -/
def lowHalf? (t : Text) : Option (Option Nat) :=
  match t with
  | .scalar '\\' :: .scalar 'u' :: a :: b :: c :: d :: _ :: _ =>
      match hexQuad? a b c d with
      | none => none
      | some n => some (if isLow n then some n else none)
  | _ => some none

/-- An escape after its backslash and its letter `u`. -/
def unicodeStep (t : Text) : StringStep :=
  match t with
  | a :: b :: c :: d :: e :: rest =>
      match hexQuad? a b c d with
      | none => .fault .unicodeEscape (t.length + 1)
      | some n =>
          if isHigh n then
            match lowHalf? (e :: rest) with
            | none => .fault .unicodeEscape (rest.length)
            | some none => .rune (Rune.ofCode n) 5
            | some (some m) => .rune (Rune.ofCode (joinPair n m)) 11
          else .rune (Rune.ofCode n) 5
  | _ => .fault .unicodeEscape (t.length + 1)

def stringStep (r : Rune) (rest : Text) : StringStep :=
  if r = .scalar '"' then .close
  else if r = .scalar '\\' then
    match rest with
    | [] => .unclosed
    | .scalar 'u' :: rest => unicodeStep rest
    | s :: rest =>
        match simpleEscape s with
        | some s => .rune s 1
        | none => .fault .escape (rest.length + 2)
  else if r.code < 0x20 then .fault .control (rest.length + 1)
  else .rune r 0

/-- The text up to the closing quote and the rest. `acc` holds what has been read in reverse order,
and `skip` runes belong to a rune read before. A text that is never closed stops without a place. -/
def scanString (acc : Text) (skip : Nat) : Text → Except (Option Stop) (Text × Text)
  | [] => .error none
  | r :: rest =>
      match skip with
      | k + 1 => scanString acc k rest
      | 0 =>
          match stringStep r rest with
          | .close => .ok (acc.reverse, rest)
          | .rune s more => scanString (s :: acc) more rest
          | .unclosed => .error none
          | .fault what left => .error (some (.fault what left))

/-- A quoted text behind its opening quote; one that is never closed is placed at that quote. -/
def scanQuoted (body : Text) : Except Stop (Text × Text) :=
  match scanString [] 0 body with
  | .ok found => .ok found
  | .error none => .error (.fault .unterminated (body.length + 1))
  | .error (some stop) => .error stop

def digitsOf (t : Text) : Text × Text := t.span Rune.isDigit

def natOfDigits (t : Text) : Nat := t.foldl (fun n r => n * 10 + (r.code - 0x30)) 0

/-- Digits after a point, if there is one; a point without a digit is left alone. -/
def scanFraction (t : Text) : Option Text × Text :=
  match t with
  | .scalar '.' :: rest =>
      match digitsOf rest with
      | ([], _) => (none, t)
      | (ds, rest) => (some ds, rest)
  | _ => (none, t)

/-- The exponent, if there is one; a mark without a digit is left alone. -/
def scanExponent (t : Text) : Option Int × Text :=
  match t with
  | .scalar 'e' :: rest | .scalar 'E' :: rest =>
      let (negative, body) := Numeral.signed rest
      match digitsOf body with
      | ([], _) => (none, t)
      | (ds, rest) =>
          (some (if negative then -(natOfDigits ds : Int) else natOfDigits ds), rest)
  | _ => (none, t)

/-- The whole part: nought alone, or digits that start with another one. -/
def scanWhole (t : Text) : Option (Text × Text) :=
  match t with
  | .scalar '0' :: rest => some ([.scalar '0'], rest)
  | r :: _ => if r.isDigit then some (digitsOf t) else none
  | [] => none

def scanNumber (t : Text) : Except Stop (Json × Text) :=
  let (negative, body) := match t with
    | .scalar '-' :: rest => (true, rest)
    | _ => (false, t)
  match scanWhole body with
  | none => .error (.fault .value t.length)
  | some (whole, rest) =>
      let (fraction, rest) := scanFraction rest
      let (exponent, rest) := scanExponent rest
      match fraction, exponent with
      | none, none =>
          if Numeral.digitLimit < whole.length then .error (.tooLong whole.length)
          else
            let n := natOfDigits whole
            .ok (.int (if negative then -(n : Int) else n), rest)
      | _, _ =>
          let fraction := fraction.getD []
          .ok (.float (.ofDecimal negative (natOfDigits (whole ++ fraction))
            (exponent.getD 0 - fraction.length)), rest)

/-- The words of JSON and the numbers that have no digits. -/
def words : List (Text × Json) :=
  [("null", .null), ("true", .bool true), ("false", .bool false), ("NaN", .float .nan),
    ("Infinity", .float (.infinity false)), ("-Infinity", .float (.infinity true))]

def scanScalar (t : Text) : Except Stop (Json × Text) :=
  match words.find? fun w => t.startsWith w.1 with
  | some (w, v) => .ok (v, t.drop w.length)
  | none => scanNumber t

mutual

/-- One value and the rest. A budget above twice the length of the text never runs out: a bracket costs
two units. -/
def scanValue : Nat → Text → Except Stop (Json × Text)
  | 0, t => .error (.fault .value t.length)
  | budget + 1, t =>
      match t with
      | .scalar '"' :: rest => do
          let (s, rest) ← scanQuoted rest
          .ok (.str s, rest)
      | .scalar '[' :: rest =>
          match skipSpace rest with
          | .scalar ']' :: rest => .ok (.arr [], rest)
          | rest => scanItems budget [] rest
      | .scalar '{' :: rest =>
          match skipSpace rest with
          | .scalar '}' :: rest => .ok (.obj [], rest)
          | rest => scanFields budget [] rest
      | _ => scanScalar t

/-- The items of an array from a value on; `acc` holds the ones before it in reverse order. -/
def scanItems : Nat → List Json → Text → Except Stop (Json × Text)
  | 0, _, t => .error (.fault .value t.length)
  | budget + 1, acc, t => do
      let (v, rest) ← scanValue budget t
      match skipSpace rest with
      | .scalar ']' :: rest => .ok (.arr (v :: acc).reverse, rest)
      | .scalar ',' :: rest => scanItems budget (v :: acc) (skipSpace rest)
      | rest => .error (.fault .comma rest.length)

/-- The fields of an object from a name on; `acc` holds the ones before it in reverse order. -/
def scanFields : Nat → List (Text × Json) → Text → Except Stop (Json × Text)
  | 0, _, t => .error (.fault .value t.length)
  | budget + 1, acc, t =>
      match t with
      | .scalar '"' :: rest => do
          let (name, rest) ← scanQuoted rest
          match skipSpace rest with
          | .scalar ':' :: rest =>
              let (v, rest) ← scanValue budget (skipSpace rest)
              match skipSpace rest with
              | .scalar '}' :: rest => .ok (.obj (Entries.ofPairs ((name, v) :: acc).reverse), rest)
              | .scalar ',' :: rest => scanFields budget ((name, v) :: acc) (skipSpace rest)
              | rest => .error (.fault .comma rest.length)
          | rest => .error (.fault .colon rest.length)
      | _ => .error (.fault .key t.length)

end

inductive ReadError where
  | malformed (what : Fault) (line column position : Nat)
  | tooLong (digits : Nat)
  deriving DecidableEq, Repr

/-- Places a fault: lines count line feeds before it, columns runes since the last of them. -/
def Stop.locate (t : Text) : Stop → ReadError
  | .tooLong digits => .tooLong digits
  | .fault what left =>
      let position := t.length - left
      let before := t.take position
      let column := (before.reverse.takeWhile (· ≠ .scalar '\n')).length + 1
      .malformed what (before.count (.scalar '\n') + 1) column position

def scanDocument (t : Text) : Except Stop Json :=
  match t with
  | .scalar '\uFEFF' :: _ => .error (.fault .byteOrderMark t.length)
  | _ => do
      let (v, rest) ← scanValue (2 * t.length + 1) (skipSpace t)
      match skipSpace rest with
      | [] => .ok v
      | rest => .error (.fault .extra rest.length)

def parse (t : Text) : Except ReadError Json :=
  match scanDocument t with
  | .ok v => .ok v
  | .error stop => .error (stop.locate t)

def digitLimitText (digits : Nat) : Text :=
  "Exceeds the limit (4300 digits) for integer string conversion: value has "
    ++ Text.ofNat digits
    ++ " digits; use sys.set_int_max_str_digits() to increase the limit"

def ReadError.message : ReadError → Text
  | .tooLong digits => digitLimitText digits
  | .malformed what line column position =>
      what.text ++ ": line " ++ Text.ofNat line ++ " column " ++ Text.ofNat column ++ " (char "
        ++ Text.ofNat position ++ ")"

end RemoteModel.Json
