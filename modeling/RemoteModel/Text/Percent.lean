import RemoteModel.Text.Utf8

/-!
Percent escapes: a byte that may not stand for itself is written as a percent sign and two
hexadecimal digits.
-/

namespace RemoteModel

namespace Percent

def mark : Rune := .scalar '%'

/-- Letters, digits and four marks stand for themselves everywhere. -/
def isUnreserved (r : Rune) : Bool :=
  r.isAsciiLetter || r.isDigit || r = .scalar '-' || r = .scalar '.' || r = .scalar '_'
    || r = .scalar '~'

def digit (n : Nat) : Rune := Rune.ofCode (if n < 10 then 0x30 + n else 0x37 + n)

def escape (b : UInt8) : Text := [mark, digit (b.toNat / 16), digit (b.toNat % 16)]

/-- Escapes the bytes that are not to be kept; a byte beyond ASCII is never kept. -/
def encode (keep : Rune → Bool) (bytes : Bytes) : Text :=
  bytes.flatMap fun b =>
    let r := Rune.ofCode b.toNat
    if b.toNat < 0x80 && keep r then [r] else escape b

def escaped? : Text → Option UInt8
  | m :: a :: b :: _ =>
      if m = mark then
        match a.hexValue?, b.hexValue? with
        | some a, some b => some (a * 16 + b).toUInt8
        | _, _ => none
      else none
  | _ => none

/-- The bytes that a text stands for, its escapes read; `skip` runes belong to an escape read before.
-/
def bytesOf (skip : Nat) : Text → Bytes
  | [] => []
  | r :: rest =>
      match skip with
      | n + 1 => bytesOf n rest
      | 0 =>
          match escaped? (r :: rest) with
          | some b => b :: bytesOf 2 rest
          | none => Utf8.encodeLoose [r] ++ bytesOf 0 rest

/-- Reads the escapes, with replacement where they spell no text; runes beyond ASCII stand for
themselves. -/
def decode (t : Text) : Text :=
  (t.splitBy fun a b => a.isAscii == b.isAscii).flatMap fun run =>
    if run.all Rune.isAscii then Utf8.decodeReplacing (bytesOf 0 run) else run

end Percent

end RemoteModel
