import RemoteModel.Text.Utf8

/-!
Names of files. To the system a name is bytes: a text is written in UTF-8, and a half that stands for
a byte as that byte. So two texts may be one name, and of these one is the text that the name is read
as.
-/

namespace RemoteModel

namespace FileName

/-- The byte that a rune from U+DC80 to U+DCFF stands for. -/
def byte? : Rune → Option UInt8
  | .scalar _ => none
  | .half u => if 0x480 ≤ u.val ∧ u.val < 0x500 then some (u.val - 0x400).toUInt8 else none

def isWritable (r : Rune) : Bool := r.isScalar || (byte? r).isSome

/-- The bytes of a name; what cannot be written is given those of a code point. -/
def bytes (name : Text) : Bytes :=
  name.flatMap fun r =>
    match byte? r with
    | some b => [b]
    | none => Utf8.encodeLoose [r]

/-- Reads bytes as a name: those that spell no character stand for themselves. `skip` bytes belong to a
character that has been read. -/
def read (skip : Nat) : Bytes → Text
  | [] => []
  | a :: rest =>
      match skip with
      | n + 1 => read n rest
      | 0 =>
          match Utf8.step a rest with
          | .char c n => .scalar c :: read (n - 1) rest
          | .bad .. => Rune.ofCode (0xDC00 + a.toNat) :: read 0 rest

/-- The text that stands for a name and all others of the same bytes. -/
def settled (name : Text) : Text := if name.isWellFormed then name else read 0 (bytes name)

end FileName

end RemoteModel
