import RemoteModel.Text.Case
import RemoteModel.Text.Table.Printable

/-!
Text as it is quoted in messages: in single quotes, unless it holds a single quote and no
double one; the quote, the backslash and all that is not printable are escaped.
-/

namespace RemoteModel

namespace Rune

def isPrintable (r : Rune) : Bool := inRanges Table.printableRanges r.code

/-- The code of a rune behind a backslash. -/
def escaped (r : Rune) : Text :=
  let n := r.code
  if n < 0x100 then "\\x" ++ Text.hex 2 n
  else if n < 0x10000 then "\\u" ++ Text.hex 4 n
  else "\\U" ++ Text.hex 8 n

def quotedWith (quote : Rune) (r : Rune) : Text :=
  let n := r.code
  if r = quote || r = .scalar '\\' then [.scalar '\\', r]
  else if n = 0x09 then "\\t"
  else if n = 0x0A then "\\n"
  else if n = 0x0D then "\\r"
  else if 0x20 ≤ n && n < 0x7F then [r]
  else if r.isPrintable then [r]
  else r.escaped

end Rune

namespace Text

def quoted (t : Text) : Text :=
  let quote : Rune :=
    if t.hasPart [.scalar '\''] && !t.hasPart [.scalar '"'] then .scalar '"' else .scalar '\''
  quote :: t.flatMap (Rune.quotedWith quote) ++ [quote]

end Text

end RemoteModel
