import RemoteModel.Json.Whole
import RemoteModel.Number.Shortest

/-!
Text with directives: a per cent sign, options and a letter that says how the next argument is
written. Arguments come one after the other, or by name from an object.
-/

namespace RemoteModel

/-- A directive. Its width and places may have come from the arguments. -/
structure Directive where
  left : Bool
  plus : Bool
  blank : Bool
  alternate : Bool
  zero : Bool
  width : Nat
  places : Option Nat
  kind : Rune
  deriving DecidableEq, Repr

/-- The arguments that are left, and the object from which arguments are taken by name. -/
structure Arguments where
  table : Option (Entries Json)
  rest : List Json
  deriving DecidableEq, Repr

namespace Arguments

/-- An object gives arguments by name, a list one after the other. -/
def ofJson : Json → Arguments
  | .obj fields => ⟨some fields, [.obj fields]⟩
  | .arr items => ⟨none, items⟩
  | v => ⟨none, [v]⟩

def next (a : Arguments) : Except Failure (Json × Arguments) :=
  match a.rest with
  | [] => .error .wrongType
  | v :: rest => .ok (v, { a with rest })

def nextWhole (a : Arguments) : Except Failure (Int × Arguments) := do
  match ← a.next with
  | (.int i, a) => return (i, a)
  | (.bool b, a) => return (if b then 1 else 0, a)
  | _ => throw .wrongType

end Arguments

namespace Directive

def withFlag (d : Directive) : Char → Option Directive
  | '-' => some { d with left := true }
  | '+' => some { d with plus := true }
  | ' ' => some { d with blank := true }
  | '#' => some { d with alternate := true }
  | '0' => some { d with zero := true }
  | _ => none

def readFlags (d : Directive) : Text → Directive × Text
  | .scalar c :: rest =>
      match d.withFlag c with
      | some d => readFlags d rest
      | none => (d, .scalar c :: rest)
  | t => (d, t)

def digitsOf (t : Text) : Nat := t.foldl (fun n r => n * 10 + (r.code - 0x30)) 0

/-- A width or a number of places at the start of a text: a star for the next argument, digits, or
nothing. -/
def readCount (part : CountPart) (a : Arguments) (t : Text) :
    Except Failure (Option Int × Arguments × Text) :=
  match t with
  | .scalar '*' :: rest => do
      let (i, a) ← a.nextWhole
      if part.limit < i.natAbs then throw (.countOverflow part)
      return (some i, a, rest)
  | _ =>
      match t.span Rune.isDigit with
      | ([], rest) => .ok (none, a, rest)
      | (digits, rest) =>
          let n := digitsOf digits
          if part.limit < n then .error (.countTooBig part) else .ok (some n, a, rest)

/-- A name up to the bracket that closes it, after `depth` further brackets that are open. -/
def readName (depth : Nat) : Text → Option (Text × Text)
  | [] => none
  | .scalar ')' :: rest =>
      match depth with
      | 0 => some ([], rest)
      | n + 1 => (readName n rest).map fun (name, rest) => (.scalar ')' :: name, rest)
  | .scalar '(' :: rest =>
      (readName (depth + 1) rest).map fun (name, rest) => (.scalar '(' :: name, rest)
  | r :: rest => (readName depth rest).map fun (name, rest) => (r :: name, rest)

def plain : Directive := ⟨false, false, false, false, false, 0, none, .scalar '%'⟩

/-- Reads a directive after its name. A negative width means that the text stands on the left. -/
def readTail (a : Arguments) (t : Text) : Except Failure (Directive × Arguments × Text) := do
  let (d, t) := plain.readFlags t
  let (width, a, t) ← readCount .width a t
  let (places, a, t) ← match t with
    | .scalar '.' :: rest => do
        let (n, a, t) ← readCount .places a rest
        pure (some (n.getD 0).toNat, a, t)
    | _ => pure (none, a, t)
  let t := match t with
    | .scalar 'h' :: rest | .scalar 'l' :: rest | .scalar 'L' :: rest => rest
    | _ => t
  match t with
  | [] => throw .directiveIncomplete
  | kind :: rest =>
      let width := width.getD 0
      return ({ d with left := d.left || width < 0, width := width.natAbs, places, kind }, a, rest)

/-- Reads a directive after its sign. A name selects its argument from the object. -/
def read (a : Arguments) (t : Text) : Except Failure (Directive × Arguments × Text) :=
  match t with
  | .scalar '(' :: rest =>
      match a.table with
      | none => .error .wrongType
      | some fields =>
          match readName 0 rest with
          | none => .error .directiveKeyIncomplete
          | some (name, rest) =>
              match fields.get? name with
              | none => .error (.missingKey name)
              | some v => readTail { a with rest := [v] } rest
  | _ => readTail a t

/-- Fills a text up to the width; the sign stays in front of noughts. -/
def fill (d : Directive) (numeric : Bool) (sign body : Text) : Text :=
  let missing := d.width - (sign.length + body.length)
  if d.left then sign ++ body ++ List.replicate missing (.scalar ' ')
  else if numeric && d.zero then sign ++ List.replicate missing (.scalar '0') ++ body
  else List.replicate missing (.scalar ' ') ++ sign ++ body

def signOf (d : Directive) (negative : Bool) : Text :=
  if negative then "-" else if d.plus then "+" else if d.blank then " " else []

def atLeast (digits : Nat) (t : Text) : Text :=
  List.replicate (digits - t.length) (.scalar '0') ++ t

def integerText (d : Directive) (base : Nat) (mark : Text) (i : Int) : Text :=
  let digits : Text := (Nat.toDigits base i.natAbs).map Rune.scalar
  let front := d.signOf (i < 0) ++ if d.alternate then mark else []
  d.fill true front (atLeast (d.places.getD 0) digits)

/-- A number of a tenth's power as digits with a point before the last `places` of them. -/
def pointed (places units : Nat) (keepPoint : Bool) : Text :=
  let digits := atLeast (places + 1) (Text.ofNat units)
  let cut := digits.length - places
  digits.take cut ++
    (if places = 0 then (if keepPoint then [.scalar '.'] else []) else .scalar '.' :: digits.drop cut)

def fixedText (places : Nat) (keepPoint : Bool) (x : Rat) : Text :=
  pointed places (Binary64.roundQuotient (x.num.natAbs * Nat.pow 10 places) x.den) keepPoint

/-- The digits of a positive number to a number of places after the first, and the power of ten of
the first. -/
def scientific (places : Nat) (x : Rat) : Nat × Int :=
  if x.num = 0 then (0, 0)
  else
    let top := Binary64.decimalTop x
    let scaled := x * Binary64.powerOfTen ((places : Int) - top)
    let units := Binary64.roundQuotient scaled.num.natAbs scaled.den
    if Nat.pow 10 (places + 1) ≤ units then (units / 10, top + 1) else (units, top)

def exponentText (top : Int) : Text :=
  (if top < 0 then "e-" else "e+") ++ atLeast 2 (Text.ofNat top.natAbs)

def exponentialText (places : Nat) (keepPoint : Bool) (x : Rat) : Text :=
  let (units, top) := scientific places x
  pointed places units keepPoint ++ exponentText top

def trimNoughts (t : Text) : Text :=
  let t := (t.reverse.dropWhile (· = .scalar '0'))
  (match t with
    | .scalar '.' :: rest => rest
    | t => t).reverse

/-- The shorter of the two forms, without noughts at the end unless they are asked for. -/
def generalText (places : Nat) (keep : Bool) (x : Rat) : Text :=
  let digits := if places = 0 then 1 else places
  let (units, top) := scientific (digits - 1) x
  let trim (t : Text) : Text := if keep || digits = 1 then t else trimNoughts t
  if -4 ≤ top ∧ top < digits then trim (fixedText ((digits : Int) - 1 - top).toNat keep x)
  else trim (pointed (digits - 1) units keep) ++ exponentText top

def floatText (d : Directive) (x : Binary64) : Text :=
  let places := d.places.getD 6
  let (kind, capital) : Char × Bool := match d.kind with
    | .scalar 'E' => ('e', true)
    | .scalar 'F' => ('f', true)
    | .scalar 'G' => ('g', true)
    | .scalar c => (c, false)
    | .half _ => ('f', false)
  let body : Text := match x.toRat? with
    | none => if x.isNan then "nan" else "inf"
    | some q =>
        let q := if q < 0 then -q else q
        if kind = 'e' then exponentialText places d.alternate q
        else if kind = 'f' then fixedText places d.alternate q
        else generalText places d.alternate q
  let negative := x.isNegative && !x.isNan
  d.fill true (d.signOf negative) (if capital then body.map (fun r =>
    if r.isAsciiLower then Rune.ofCode (r.code - 0x20) else r) else body)

def asciiOnly (t : Text) : Text :=
  t.flatMap fun r => if r.isAscii then [r] else r.escaped

def wholeOf : Json → Except Failure Int
  | .str _ => .error .wrongType
  | v => v.whole

def integerOf : Json → Except Failure Int
  | .float _ => .error .wrongType
  | v => wholeOf v

def floatOf : Json → Except Failure Binary64
  | .float x => .ok x
  | .int i =>
      let x := Binary64.ofInt i
      if x.toRat?.isNone then .error .wholeTooLarge else .ok x
  | .bool b => .ok (.ofInt (if b then 1 else 0))
  | _ => .error .wrongType

/-- Writes an argument. `index` says where in the text the letter of the directive stands. -/
def write (d : Directive) (index : Nat) (v : Json) : Except Failure Text :=
  let text (t : Text) : Text := d.fill false [] (d.places.elim t t.take)
  match d.kind with
  | .scalar 's' => .ok (text v.shown)
  | .scalar 'r' => .ok (text v.literal)
  | .scalar 'a' => .ok (text (asciiOnly v.literal))
  | .scalar 'd' | .scalar 'i' | .scalar 'u' =>
      (wholeOf v).map (d.integerText 10 [])
  | .scalar 'x' => (integerOf v).map (d.integerText 16 "0x")
  | .scalar 'X' =>
      (integerOf v).map fun i => (d.integerText 16 "0x" i).map fun r =>
        if r.isAsciiLower then Rune.ofCode (r.code - 0x20) else r
  | .scalar 'o' => (integerOf v).map (d.integerText 8 "0o")
  | .scalar 'e' | .scalar 'E' | .scalar 'f' | .scalar 'F' | .scalar 'g' | .scalar 'G' =>
      (floatOf v).map d.floatText
  | .scalar 'c' =>
      match v with
      | .str [r] => .ok (d.fill false [] [r])
      | v => do
          let i ← integerOf v
          if 0 ≤ i ∧ i < 0x110000 then return d.fill false [] [Rune.ofCode i.toNat]
          else throw .noCharacter
  | kind => .error (.directiveUnknown kind index)

/-- Writes text with directives, within a number of steps. Two signs in a row are one sign. -/
def expandWithin (total : Nat) : Nat → Arguments → Text → Except Failure Text
  | 0, _, _ => .ok []
  | fuel + 1, a, t =>
      match t.span fun r => r ≠ .scalar '%' with
      | (head, []) => if a.table.isNone && !a.rest.isEmpty then .error .wrongType else .ok head
      | (head, _ :: .scalar '%' :: rest) => do
          return head ++ .scalar '%' :: (← expandWithin total fuel a rest)
      | (head, _ :: t) => do
          let (d, a, rest) ← read a t
          let (v, a) ← a.next
          let written ← d.write (total - rest.length - 1) v
          return head ++ written ++ (← expandWithin total fuel a rest)

def expand (args : Json) (t : Text) : Except Failure Text :=
  expandWithin t.length (t.length + 1) (.ofJson args) t

end Directive

end RemoteModel
