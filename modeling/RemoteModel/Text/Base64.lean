import RemoteModel.Text.Utf8

/-!
Bytes as text of 64 runes: three bytes make four runes, and equals signs fill up the last four.
-/

namespace RemoteModel

namespace Base64

def alphabet : Text := "ABCDEFGHIJKLMNOPQRSTUVWXYZabcdefghijklmnopqrstuvwxyz0123456789+/"

def digit (n : Nat) : Rune := alphabet.getD n (.scalar '=')

def filler : Rune := .scalar '='

def encodeOnto (acc : Text) : Bytes → Text
  | [] => acc.reverse
  | [a] =>
      (filler :: filler :: digit (a.toNat % 4 * 16) :: digit (a.toNat / 4) :: acc).reverse
  | [a, b] =>
      (filler :: digit (b.toNat % 16 * 4) :: digit (a.toNat % 4 * 16 + b.toNat / 16)
        :: digit (a.toNat / 4) :: acc).reverse
  | a :: b :: c :: rest =>
      encodeOnto (digit (c.toNat % 64) :: digit (b.toNat % 16 * 4 + c.toNat / 64)
        :: digit (a.toNat % 4 * 16 + b.toNat / 16) :: digit (a.toNat / 4) :: acc) rest

def encode (bytes : Bytes) : Text := encodeOnto [] bytes

def value? (r : Rune) : Option Nat := alphabet.idxOf? r

/-- Fillers may stand in the last four runes only. -/
def decodeOnto (acc : Bytes) : Text → Option Bytes
  | [] => some acc.reverse
  | a :: b :: c :: d :: rest => do
      let first := (← value? a) * 4 + (← value? b) / 16
      let second (b c : Nat) : Nat := b % 16 * 16 + c / 4
      if d ≠ filler then
        let last := (← value? c) % 4 * 64 + (← value? d)
        decodeOnto (last.toUInt8 :: (second (← value? b) (← value? c)).toUInt8 :: first.toUInt8 :: acc) rest
      else if rest ≠ [] then none
      else if c ≠ filler then
        some (((second (← value? b) (← value? c)).toUInt8 :: first.toUInt8 :: acc).reverse)
      else some ((first.toUInt8 :: acc).reverse)
  | _ => none

def decode? (t : Text) : Option Bytes := decodeOnto [] t

end Base64

end RemoteModel
