/-!
Text as it travels in documents: a list of runes. A rune is a character or half of a surrogate
pair that stands alone, which a document may name by an escape and no encoding can write.
-/

namespace RemoteModel

inductive Rune where
  | scalar (c : Char)
  | half (u : Fin 0x800)
  deriving DecidableEq, Repr, Inhabited

namespace Rune

def code : Rune → Nat
  | .scalar c => c.toNat
  | .half u => 0xD800 + u.val

/-- The rune of a code point; what is no code point gives the replacement character. -/
def ofCode (n : Nat) : Rune :=
  if h : 0xD800 ≤ n ∧ n < 0xE000 then .half ⟨n - 0xD800, by omega⟩
  else if n < 0x110000 then .scalar (Char.ofNat n)
  else .scalar (Char.ofNat 0xFFFD)

def isScalar : Rune → Bool
  | .scalar _ => true
  | .half _ => false

def isAscii (r : Rune) : Bool := r.code < 0x80

def isDigit (r : Rune) : Bool := 0x30 ≤ r.code && r.code ≤ 0x39

def isAsciiUpper (r : Rune) : Bool := 0x41 ≤ r.code && r.code ≤ 0x5A

def isAsciiLower (r : Rune) : Bool := 0x61 ≤ r.code && r.code ≤ 0x7A

def isAsciiLetter (r : Rune) : Bool := r.isAsciiUpper || r.isAsciiLower

def hexValue? (r : Rune) : Option Nat :=
  let n := r.code
  if 0x30 ≤ n ∧ n ≤ 0x39 then some (n - 0x30)
  else if 0x41 ≤ n ∧ n ≤ 0x46 then some (n - 0x37)
  else if 0x61 ≤ n ∧ n ≤ 0x66 then some (n - 0x57)
  else none

end Rune

abbrev Text := List Rune

namespace Text

def ofString (s : String) : Text := s.toList.map .scalar

instance : Coe String Text := ⟨ofString⟩

/-- Text that every encoding of all characters can write. -/
def isWellFormed (t : Text) : Bool := t.all Rune.isScalar

def digit (n : Nat) : Rune := .scalar (Nat.digitChar n)

def ofNat (n : Nat) : Text := (Nat.toDigits 10 n).map .scalar

def ofInt (i : Int) : Text :=
  if i < 0 then .scalar '-' :: ofNat i.natAbs else ofNat i.natAbs

/-- Hexadecimal with lower-case digits, filled with zeros on the left. -/
def hex (width n : Nat) : Text :=
  let digits := (Nat.toDigits 16 n).map Rune.scalar
  List.replicate (width - digits.length) (.scalar '0') ++ digits

def join (sep : Text) (parts : List Text) : Text := List.intercalate sep parts

def startsWith (t head : Text) : Bool := head.isPrefixOf t

def endsWith (t tail : Text) : Bool := tail.isSuffixOf t

/-- The part before the first rune that satisfies `p`, and the rest from that rune on. -/
def cut (p : Rune → Bool) (t : Text) : Text × Text := t.span (fun r => !p r)

/-- The parts between the separators; there is one more part than separators. -/
def splitOn (sep : Rune) (t : Text) : List Text :=
  t.foldr (fun r parts =>
    if r = sep then [] :: parts
    else match parts with
      | [] => [[r]]
      | p :: ps => (r :: p) :: ps) [[]]

def hasPart (t part : Text) : Bool :=
  match t with
  | [] => part.isEmpty
  | r :: rest => part.isPrefixOf (r :: rest) || hasPart rest part

def replaceRune (old new : Rune) (t : Text) : Text := t.map fun r => if r = old then new else r

def lowerAscii (t : Text) : Text :=
  t.map fun r => if r.isAsciiUpper then Rune.ofCode (r.code + 0x20) else r

def le (s t : Text) : Bool :=
  match s, t with
  | [], _ => true
  | _ :: _, [] => false
  | a :: s, b :: t => if a = b then le s t else a.code < b.code

/-- The text as a string of characters; a lone surrogate becomes the replacement character. -/
def toString (t : Text) : String :=
  String.ofList (t.map fun
    | .scalar c => c
    | .half _ => Char.ofNat 0xFFFD)

end Text

end RemoteModel
