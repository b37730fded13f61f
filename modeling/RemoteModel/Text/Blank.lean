import RemoteModel.Text.Rune

/-!
White space in text. The class is wider than the white space of JSON: it holds the separators
U+001C to U+001F and the blanks of all scripts.
-/

namespace RemoteModel

namespace Rune

def isBlank (r : Rune) : Bool :=
  let n := r.code
  (0x09 ≤ n && n ≤ 0x0D) || (0x1C ≤ n && n ≤ 0x20) || n == 0x85 || n == 0xA0 || n == 0x1680
    || (0x2000 ≤ n && n ≤ 0x200A) || n == 0x2028 || n == 0x2029 || n == 0x202F || n == 0x205F
    || n == 0x3000

end Rune

namespace Text

def trimLeft (t : Text) : Text := t.dropWhile Rune.isBlank

def trimRight (t : Text) : Text := (t.reverse.dropWhile Rune.isBlank).reverse

def trim (t : Text) : Text := trimRight (trimLeft t)

def words (t : Text) : List Text :=
  let (ready, current) := t.foldr (fun r (acc : List Text × Text) =>
    if r.isBlank then (if acc.2.isEmpty then acc.1 else acc.2 :: acc.1, [])
    else (acc.1, r :: acc.2)) ([], [])
  if current.isEmpty then ready else current :: ready

end Text

end RemoteModel
