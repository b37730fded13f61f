import RemoteModel.Text.Utf8

/-!
The digest SHA-256: a message is filled up to whole blocks of 64 bytes, and eight words of state run
through them.
-/

namespace RemoteModel

namespace Sha256

abbrev Word := UInt32

def rotate (n : Word) (w : Word) : Word := (w >>> n) ||| (w <<< (32 - n))

structure State where
  a : Word
  b : Word
  c : Word
  d : Word
  e : Word
  f : Word
  g : Word
  h : Word
  deriving DecidableEq, Repr

namespace State

def start : State :=
  ⟨0x6a09e667, 0xbb67ae85, 0x3c6ef372, 0xa54ff53a, 0x510e527f, 0x9b05688c, 0x1f83d9ab,
    0x5be0cd19⟩

def add (s t : State) : State :=
  ⟨s.a + t.a, s.b + t.b, s.c + t.c, s.d + t.d, s.e + t.e, s.f + t.f, s.g + t.g, s.h + t.h⟩

def words (s : State) : List Word := [s.a, s.b, s.c, s.d, s.e, s.f, s.g, s.h]

end State

def constants : List Word :=
  [0x428a2f98, 0x71374491, 0xb5c0fbcf, 0xe9b5dba5, 0x3956c25b, 0x59f111f1, 0x923f82a4, 0xab1c5ed5,
    0xd807aa98, 0x12835b01, 0x243185be, 0x550c7dc3, 0x72be5d74, 0x80deb1fe, 0x9bdc06a7, 0xc19bf174,
    0xe49b69c1, 0xefbe4786, 0x0fc19dc6, 0x240ca1cc, 0x2de92c6f, 0x4a7484aa, 0x5cb0a9dc, 0x76f988da,
    0x983e5152, 0xa831c66d, 0xb00327c8, 0xbf597fc7, 0xc6e00bf3, 0xd5a79147, 0x06ca6351, 0x14292967,
    0x27b70a85, 0x2e1b2138, 0x4d2c6dfc, 0x53380d13, 0x650a7354, 0x766a0abb, 0x81c2c92e, 0x92722c85,
    0xa2bfe8a1, 0xa81a664b, 0xc24b8b70, 0xc76c51a3, 0xd192e819, 0xd6990624, 0xf40e3585, 0x106aa070,
    0x19a4c116, 0x1e376c08, 0x2748774c, 0x34b0bcb5, 0x391c0cb3, 0x4ed8aa4a, 0x5b9cca4f, 0x682e6ff3,
    0x748f82ee, 0x78a5636f, 0x84c87814, 0x8cc70208, 0x90befffa, 0xa4506ceb, 0xbef9a3f7, 0xc67178f2]

/-- One round with the word and the constant of the round. -/
def round (s : State) (word constant : Word) : State :=
  let mix := rotate 6 s.e ^^^ rotate 11 s.e ^^^ rotate 25 s.e
  let choice := (s.e &&& s.f) ^^^ (~~~ s.e &&& s.g)
  let first := s.h + mix + choice + constant + word
  let blend := rotate 2 s.a ^^^ rotate 13 s.a ^^^ rotate 22 s.a
  let majority := (s.a &&& s.b) ^^^ (s.a &&& s.c) ^^^ (s.b &&& s.c)
  ⟨first + (blend + majority), s.a, s.b, s.c, s.d + first, s.e, s.f, s.g⟩

/-- The next word of a schedule whose words so far are listed from the last one back. -/
def nextWord (back : List Word) : Word :=
  let w (n : Nat) : Word := back.getD n 0
  let late := rotate 17 (w 1) ^^^ rotate 19 (w 1) ^^^ (w 1 >>> 10)
  let early := rotate 7 (w 14) ^^^ rotate 18 (w 14) ^^^ (w 14 >>> 3)
  late + w 6 + early + w 15

def extend : Nat → List Word → List Word
  | 0, back => back
  | n + 1, back => extend n (nextWord back :: back)

def wordsOf : Bytes → List Word
  | a :: b :: c :: d :: rest =>
      ((a.toUInt32 <<< 24) ||| (b.toUInt32 <<< 16) ||| (c.toUInt32 <<< 8) ||| d.toUInt32)
        :: wordsOf rest
  | _ => []

def schedule (block : Bytes) : List Word := (extend 48 (wordsOf block).reverse).reverse

def compress (s : State) (block : Bytes) : State :=
  s.add (((schedule block).zip constants).foldl (fun s w => round s w.1 w.2) s)

def bigEndian : Nat → Nat → Bytes
  | 0, _ => []
  | width + 1, n => (n / Nat.pow 256 width).toUInt8 :: bigEndian width n

/-- The message with a one bit, zeros and its length in bits behind it. -/
def padded (message : Bytes) : Bytes :=
  let n := message.length
  message ++ 0x80 :: (List.replicate ((119 - n % 64) % 64) 0 ++ bigEndian 8 (8 * n))

def compressAll (s : State) (bytes : Bytes) : State :=
  match bytes with
  | [] => s
  | b :: rest => compressAll (compress s ((b :: rest).take 64)) ((b :: rest).drop 64)
  termination_by bytes.length
  decreasing_by simp only [List.length_drop, List.length_cons]; omega

def bytesOf (w : Word) : Bytes := bigEndian 4 w.toNat

def hash (message : Bytes) : Bytes :=
  (compressAll .start (padded message)).words.flatMap bytesOf

end Sha256

namespace Bytes

def hex (bytes : Bytes) : Text := bytes.flatMap fun b => Text.hex 2 b.toNat

def ofHex? : Text → Option Bytes
  | [] => some []
  | a :: b :: rest => do
      let byte := (← a.hexValue?) * 16 + (← b.hexValue?)
      return byte.toUInt8 :: (← ofHex? rest)
  | _ => none

end Bytes

namespace Sha256

def hexHash (message : Bytes) : Text := Bytes.hex (hash message)

end Sha256

end RemoteModel
