import RemoteModel.Text.Utf8

/-!
Reading bytes as text in a named charset. What a charset cannot read becomes U+FFFD, so reading
never fails once the charset is known.
-/

namespace RemoteModel

inductive Charset where
  | utf8
  | latin1
  | ascii
  | utf16
  deriving DecidableEq, Repr

namespace Charset

/-- The names of a charset, with hyphens and blanks written as underscores. -/
def names : List (Text × Charset) :=
  [("utf_8", utf8), ("utf8", utf8), ("u8", utf8), ("latin_1", latin1), ("latin1", latin1),
    ("iso_8859_1", latin1), ("iso8859_1", latin1), ("l1", latin1), ("ascii", ascii),
    ("us_ascii", ascii), ("646", ascii), ("utf_16_le", utf16), ("utf_16le", utf16)]

def ofName? (name : Text) : Option Charset :=
  let plain := (Text.lowerAscii name).map fun r =>
    if r = .scalar '-' ∨ r = .scalar ' ' then .scalar '_' else r
  (names.find? fun e => e.1 = plain).map Prod.snd

def replacement : Rune := .scalar '\uFFFD'

/-- The units of two bytes, the low byte first, and whether a byte is left over. -/
def units : Bytes → List Nat × Bool
  | [] => ([], false)
  | [_] => ([], true)
  | a :: b :: rest =>
      let (us, odd) := units rest
      ((a.toNat + 0x100 * b.toNat) :: us, odd)

/-- A high unit stands with the low unit after it for one character; alone it is unreadable, and at
the end it takes a byte that is left over with it. -/
def readUnits (odd : Bool) : List Nat → Text
  | [] => if odd then [replacement] else []
  | u :: rest =>
      if 0xDC00 ≤ u ∧ u < 0xE000 then replacement :: readUnits odd rest
      else if 0xD800 ≤ u ∧ u < 0xDC00 then
        match rest with
        | [] => [replacement]
        | v :: rest =>
            if 0xDC00 ≤ v ∧ v < 0xE000 then
              Rune.ofCode (0x10000 + (u - 0xD800) * 0x400 + (v - 0xDC00)) :: readUnits odd rest
            else replacement :: readUnits odd (v :: rest)
      else Rune.ofCode u :: readUnits odd rest

def decode : Charset → Bytes → Text
  | .utf8, bytes => Utf8.decodeReplacing bytes
  | .latin1, bytes => bytes.map fun b => Rune.ofCode b.toNat
  | .ascii, bytes => bytes.map fun b => if b < 0x80 then Rune.ofCode b.toNat else replacement
  | .utf16, bytes =>
      let (us, odd) := units bytes
      readUnits odd us

end Charset

end RemoteModel
