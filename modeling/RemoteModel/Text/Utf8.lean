import RemoteModel.Text.Rune

/-!
Text as bytes. UTF-8 is written for well-formed text only; it is read either strictly, where the
first bad byte is an error with its reason, or with every maximal ill-formed part replaced by
U+FFFD.
-/

namespace RemoteModel

abbrev Bytes := List UInt8

namespace Utf8

def encodeScalar (c : Char) : Bytes :=
  let n := c.toNat
  if n < 0x80 then [n.toUInt8]
  else if n < 0x800 then [(0xC0 + n / 0x40).toUInt8, (0x80 + n % 0x40).toUInt8]
  else if n < 0x10000 then
    [(0xE0 + n / 0x1000).toUInt8, (0x80 + n / 0x40 % 0x40).toUInt8, (0x80 + n % 0x40).toUInt8]
  else
    [(0xF0 + n / 0x40000).toUInt8, (0x80 + n / 0x1000 % 0x40).toUInt8,
      (0x80 + n / 0x40 % 0x40).toUInt8, (0x80 + n % 0x40).toUInt8]

/-- The first rune that cannot be written, and where it stands and the run of surrogates from it on
ends. -/
def firstUnwritable (writable : Rune → Bool) (t : Text) : Option (Rune × Nat × Nat) :=
  let start := (t.takeWhile writable).length
  match t.drop start with
  | [] => none
  | r :: rest => some (r, start, start + 1 + (rest.takeWhile fun r => !r.isScalar).length)

def encode? (t : Text) : Option Bytes :=
  if t.isWellFormed then
    some (t.flatMap fun
      | .scalar c => encodeScalar c
      | .half _ => [])
  else none

/-- Bytes of text in which a lone surrogate is written like any other code point. -/
def encodeLoose (t : Text) : Bytes :=
  t.flatMap fun
    | .scalar c => encodeScalar c
    | .half u =>
        let n := 0xD800 + u.val
        [(0xE0 + n / 0x1000).toUInt8, (0x80 + n / 0x40 % 0x40).toUInt8, (0x80 + n % 0x40).toUInt8]

inductive Defect where
  | startByte
  | continuation
  | truncated
  deriving DecidableEq, Repr

/-- One step of reading: a character with the bytes that spell it, or the length of the longest
ill-formed part and what is wrong with it. -/
inductive Step where
  | char (c : Char) (length : Nat)
  | bad (defect : Defect) (length : Nat)
  deriving DecidableEq, Repr

/-- What may follow a lead byte: the bounds of the second byte and the number of bytes after it. -/
def leadBounds (a : Nat) : Option (Nat × Nat × Nat) :=
  if 0xC2 ≤ a ∧ a ≤ 0xDF then some (0x80, 0xBF, 0)
  else if a = 0xE0 then some (0xA0, 0xBF, 1)
  else if a = 0xED then some (0x80, 0x9F, 1)
  else if 0xE1 ≤ a ∧ a ≤ 0xEF then some (0x80, 0xBF, 1)
  else if a = 0xF0 then some (0x90, 0xBF, 2)
  else if 0xF1 ≤ a ∧ a ≤ 0xF3 then some (0x80, 0xBF, 2)
  else if a = 0xF4 then some (0x80, 0x8F, 2)
  else none

/-- Reads `n` further continuation bytes onto the value read so far. -/
def tails (value read : Nat) : Nat → Bytes → Step
  | 0, _ => .char (Char.ofNat value) read
  | _ + 1, [] => .bad .truncated read
  | n + 1, b :: rest =>
      if 0x80 ≤ b.toNat ∧ b.toNat ≤ 0xBF then
        tails (value * 0x40 + (b.toNat - 0x80)) (read + 1) n rest
      else .bad .continuation read

def step (a : UInt8) (rest : Bytes) : Step :=
  let lead := a.toNat
  if lead < 0x80 then .char (Char.ofNat lead) 1
  else match leadBounds lead with
    | none => .bad .startByte 1
    | some (low, high, more) =>
        match rest with
        | [] => .bad .truncated 1
        | b :: rest =>
            if low ≤ b.toNat ∧ b.toNat ≤ high then
              let top := lead % (if more = 0 then 0x20 else if more = 1 then 0x10 else 0x08)
              tails (top * 0x40 + (b.toNat - 0x80)) 2 more rest
            else .bad .continuation 1

def Step.length : Step → Nat
  | .char _ n => n
  | .bad _ n => n

/-- Reads with replacement; `skip` bytes belong to a part that has been read. -/
def decodeOnto (acc : Text) (skip : Nat) : Bytes → Text
  | [] => acc.reverse
  | a :: rest =>
      match skip with
      | n + 1 => decodeOnto acc n rest
      | 0 =>
          match step a rest with
          | .char c n => decodeOnto (.scalar c :: acc) (n - 1) rest
          | .bad _ n => decodeOnto (.scalar '\uFFFD' :: acc) (n - 1) rest

def decodeReplacing (bytes : Bytes) : Text := decodeOnto [] 0 bytes

/-- Why bytes are no UTF-8: the byte and position of the first ill-formed part, and its length. -/
structure Fault where
  byte : UInt8
  position : Nat
  length : Nat
  defect : Defect
  deriving DecidableEq, Repr

def decodeStrictOnto (acc : Text) (position skip : Nat) : Bytes → Except Fault Text
  | [] => .ok acc.reverse
  | a :: rest =>
      match skip with
      | n + 1 => decodeStrictOnto acc (position + 1) n rest
      | 0 =>
          match step a rest with
          | .char c n => decodeStrictOnto (.scalar c :: acc) (position + 1) (n - 1) rest
          | .bad defect n => .error ⟨a, position, n, defect⟩

def decode (bytes : Bytes) : Except Fault Text := decodeStrictOnto [] 0 0 bytes

def Defect.text : Defect → Text
  | .startByte => "invalid start byte"
  | .continuation => "invalid continuation byte"
  | .truncated => "unexpected end of data"

/-- One byte is named with its value, a longer part by its first and last position. -/
def Fault.message (f : Fault) : Text :=
  if f.length = 1 then
    "'utf-8' codec can't decode byte 0x" ++ Text.hex 2 f.byte.toNat ++ " in position "
      ++ Text.ofNat f.position ++ ": " ++ f.defect.text
  else
    "'utf-8' codec can't decode bytes in position " ++ Text.ofNat f.position ++ "-"
      ++ Text.ofNat (f.position + f.length - 1) ++ ": " ++ f.defect.text

end Utf8

end RemoteModel
